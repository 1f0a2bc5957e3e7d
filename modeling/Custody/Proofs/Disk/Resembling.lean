import Custody.Proofs.Disk.Identity

set_option autoImplicit false

/-! # Disks that are the same but for a file or two

Two disks may differ in the files of two names in one directory, one of them with related contents
on both disks and the other anything (`Disk.SameBut`). Paths lead to the same places on them, and a
file that is written under the second name and moved to the first is moved on both disks or on
neither: `Disk.Resembles.rename`, `Disk.SameBut.rename`. -/

namespace Custody.Disk

variable {disk disk' disk₁ disk₂ : Disk} {dir : Path} {name : Bytes} {parent : Location}
  {file file' : File}

/-! ## Files written twice -/

/-- A file that has been written lies at its place, and elsewhere nothing has changed. -/
theorem Wrote.node? (h : Wrote dir name file disk disk') :
    ∃ parent, disk.Places dir name parent ∧ disk.IsFree (parent ++ [name]) ∧
      disk'.node? (parent ++ [name]) = some (.file file) ∧
      ∀ location, location ≠ parent ++ [name] → disk'.node? location = disk.node? location := by
  obtain ⟨parent, hplaces, hfree, hnodes, -⟩ := h
  have hnode : ∀ location, disk'.node? location =
      (disk.put (parent ++ [name]) (.file file)).node? location := by
    intro location
    unfold Disk.node?
    rw [hnodes]
  refine ⟨parent, hplaces, hfree, ?_, fun location hne => ?_⟩
  · rw [hnode, node?_put_self (by simp)]
  · rw [hnode, node?_put_of_ne hne]

theorem Wrote.kept (h : Wrote dir name file disk disk') : disk.Kept disk' := by
  obtain ⟨-, -, -, -, hhome⟩ := id h
  obtain ⟨parent, -, hfree, -, hothers⟩ := h.node?
  refine ⟨hhome, fun location hnode => ?_⟩
  rw [hothers _ ?_, hnode]
  rintro rfl
  exact hfree hnode

/-- The place of a file that has been written is where the way to its directory leads. -/
theorem Wrote.node?_of_walk (h : Wrote dir name file disk disk')
    (hwalk : disk.walk dir = .ok parent) : disk'.node? (parent ++ [name]) = some (.file file) ∧
      ∀ location, location ≠ parent ++ [name] → disk'.node? location = disk.node? location := by
  obtain ⟨parent', hplaces, -, hnode, hothers⟩ := h.node?
  obtain rfl : parent = parent' := Except.ok.inj (hwalk.symm.trans hplaces.walk_eq)
  exact ⟨hnode, hothers⟩

/-- What is written last is what has been written. -/
theorem Wrote.trans (h : Wrote dir name file disk disk₁) (h' : Wrote dir name file' disk₁ disk') :
    Wrote dir name file' disk disk' := by
  have hkept := h.kept
  obtain ⟨parent, hplaces, hfree, hnodes, hhome⟩ := h
  obtain ⟨parent', hplaces', -, hnodes', hhome'⟩ := h'
  obtain rfl : parent = parent' :=
    Except.ok.inj ((hkept.walk hplaces.walk_eq).symm.trans hplaces'.walk_eq)
  refine ⟨parent, hplaces, hfree, ?_, hhome'.trans hhome⟩
  rw [hnodes', put, put, hnodes, put]
  apply Std.ExtTreeMap.ext_getElem?
  intro location
  simp only [Std.ExtTreeMap.getElem?_insert]
  split <;> rfl

/-- A file that is there can be written. -/
theorem exists_write_join (h : Path.IsFileName name)
    (hfile : disk.inspect (dir.join ⟨name⟩) = .ok (.file file)) (content : Bytes) :
    ∃ disk', disk.write (dir.join ⟨name⟩) content = .ok disk' := by
  obtain ⟨parent, hplaces, hnode⟩ := (inspect_join h).1 hfile
  unfold write
  rw [locate_join h hplaces.refusal_eq, hplaces.walk_eq]
  simp only [Except.map, bind, Except.bind, lookup, if_neg (Nat.not_lt.2 hplaces.short),
    Target.location, hnode]
  exact ⟨_, rfl⟩

/-! ## Disks that differ in the content of files -/

/-- The disks have directories and files in the same places. -/
structure Resembles (disk disk' : Disk) : Prop where
  home_eq : disk'.home = disk.home
  node? : ∀ location, disk'.node? location = disk.node? location ∨
    ∃ file file', disk.node? location = some (.file file) ∧
      disk'.node? location = some (.file file')

namespace Resembles

theorem enter_eq (h : disk.Resembles disk') : disk'.enter = disk.enter := by
  funext location component
  unfold enter
  rcases h.node? (location ++ [component]) with heq | ⟨file, file', hnode, hnode'⟩
  · rw [heq]
  · rw [hnode, hnode']

theorem locate_eq (h : disk.Resembles disk') (path : Path) :
    disk'.locate path = disk.locate path := by
  unfold locate
  rw [h.enter_eq, h.home_eq]

theorem lookup (h : disk.Resembles disk') (target : Target) :
    disk'.lookup target = disk.lookup target ∨ ∃ file file',
      disk.lookup target = .ok (some (.file file)) ∧
        disk'.lookup target = .ok (some (.file file')) := by
  unfold Disk.lookup
  cases target.name? with
  | none => exact .inl rfl
  | some name =>
    dsimp only
    split
    · exact .inl rfl
    · rcases h.node? target.location with heq | ⟨file, file', hnode, hnode'⟩
      · exact .inl (congrArg Except.ok heq)
      · exact .inr ⟨file, file', congrArg Except.ok hnode, congrArg Except.ok hnode'⟩

end Resembles

/-- How moving a file ends. -/
theorem rename_eq_of_file {source destination : Path} {old : Target}
    (hold : disk.locate source = .ok old) (hfile : disk.lookup old = .ok (some (.file file))) :
    disk.rename source destination =
      if source.bytes.contains 0 ∨ destination.bytes.contains 0 then .error .nulInPath
      else (disk.locate destination).bind fun new =>
        if old.name? = none ∨ new.name? = none then .error .busy
        else (disk.lookup new).bind fun occupant =>
          if old.slashed ∨ new.slashed then .error .notDirectory
          else if isBelow old.location new.location then .error .invalid
          else if isBelow new.location old.location then .error .notEmpty
          else if old.location = new.location then .ok disk
          else if occupant = some .directory then .error .isDirectory
          else .ok ((disk.erase old.location).put new.location (.file file)) := by
  have hok : ∀ {α β : Type} (a : α) (f : α → Except IoError β), (Except.ok a >>= f) = f a :=
    fun _ _ => rfl
  unfold rename
  rw [hold]
  split
  · rfl
  · cases disk.locate destination with
    | error error => rfl
    | ok new =>
      rw [hok, hok]
      dsimp only [Except.bind]
      by_cases hbusy : old.name? = none ∨ new.name? = none
      · rw [if_pos hbusy, if_pos hbusy]
        rfl
      · rw [if_neg hbusy, if_neg hbusy, hfile, hok]
        dsimp only
        cases disk.lookup new with
        | error error => rfl
        | ok occupant =>
          have hnode : Node.file file ≠ .directory := by simp
          rw [hok]
          dsimp only
          by_cases hslash : old.slashed = true ∨ new.slashed = true
          · rw [if_pos ⟨hnode, hslash⟩, if_pos hslash]
            rfl
          · rw [if_neg fun h => hslash h.2, if_neg hslash]
            split
            · rfl
            · split
              · rfl
              · split
                · rfl
                · rcases occupant with _ | _ | _ <;> rfl

/-- A file is moved on both disks, or on neither and for the same reason. -/
theorem Resembles.rename (h : disk.Resembles disk') {source : Path} (destination : Path)
    (hfile : disk.inspect source = .ok (.file file))
    (hfile' : disk'.inspect source = .ok (.file file')) :
    (disk'.rename source destination).map (fun _ => ()) =
      (disk.rename source destination).map fun _ => () := by
  obtain ⟨old, hold, hlookup⟩ := exists_of_inspect_file hfile
  obtain ⟨old', hold', hlookup'⟩ := exists_of_inspect_file hfile'
  rw [h.locate_eq, hold] at hold'
  cases hold'
  rw [rename_eq_of_file hold hlookup, rename_eq_of_file ((h.locate_eq _).trans hold) hlookup',
    h.locate_eq]
  split
  · rfl
  · cases disk.locate destination with
    | error error => simp only [Except.bind]
    | ok new =>
      dsimp only [Except.bind]
      split
      · rfl
      · -- what is looked up at the destination is no directory on the one disk only
        rcases h.lookup new with heq | ⟨occupant, occupant', hnew, hnew'⟩
        · rw [heq]
          cases disk.lookup new with
          | error error => simp only
          | ok occupant =>
            simp only [apply_ite (Except.map fun _ : Disk => ())]
            simp only [Except.map]
        · rw [hnew, hnew']
          simp only [Option.some.injEq, reduceCtorEq, if_false,
            apply_ite (Except.map fun _ : Disk => ())]
          simp only [Except.map]

/-! ## What is seen beside a file that has been written -/

theorem inspect_of_refusal {path : Path} {error : IoError} (h : refusal? path = some error) :
    disk.inspect path = .error error := by
  unfold inspect
  rw [locate_eq, h]
  rfl

/-- A path can be handed to the system if a longer one can, unless it is the empty path. -/
theorem refusal_of_withSuffix {path : Path} {suffix : String} (hpath : path.bytes ≠ [])
    (h : refusal? (path.withSuffix suffix) = none) : refusal? path = none := by
  unfold refusal? Path.withSuffix at h
  unfold refusal?
  simp only [List.contains_eq_mem, List.mem_append, List.length_append, decide_eq_true_eq] at h ⊢
  split at h
  · exact absurd h (by simp)
  · rename_i hzero
    split at h
    · exact absurd h (by simp)
    · split at h
      · exact absurd h (by simp)
      · rename_i hlong
        rw [if_neg fun hmem => hzero (.inl hmem), if_neg hpath, if_neg (by omega)]

/-- The path of a directory that can be walked through shows it. -/
theorem inspect_of_walk (hfine : refusal? dir = none) (hwalk : disk.walk dir = .ok parent) :
    disk.inspect dir = .ok .directory := by
  obtain ⟨target, hlocate, hlookup⟩ := lookup_of_walk hfine hwalk
  unfold inspect
  rw [hlocate]
  simp only [bind, Except.bind, hlookup]
  rfl

/-- A path that ends with no name leads to a directory if its front does. -/
theorem exists_walk_of_splits {path : Path} {last : Bytes} (hsplits : path.Splits dir last)
    (hlast : last = [] ∨ last = Path.here ∨ last = Path.above)
    (hwalk : disk.walk dir = .ok parent) : ∃ location, disk.walk path = .ok location := by
  by_cases hnil : last = []
  · have hpath : path = dir := by
      obtain ⟨bytes⟩ := path
      obtain ⟨front⟩ := dir
      have hbytes := hsplits.bytes_eq
      rw [hnil, List.append_nil] at hbytes
      exact congrArg Path.mk hbytes
    exact ⟨parent, hpath ▸ hwalk⟩
  · unfold walk at hwalk ⊢
    rw [hsplits.components_eq hnil, hsplits.isAbsolute_eq, List.foldlM_append, hwalk]
    rcases hlast with rfl | rfl | rfl
    · exact absurd rfl hnil
    · exact ⟨parent, rfl⟩
    · exact ⟨parent.dropLast, rfl⟩

/-! ## Disks that are the same but for two files -/

/-- The disks are the same but for the files of two names in a directory: those of the first name
    have related contents, and those of the second are of no account. -/
structure SameBut (related : Bytes → Bytes → Prop) (dir : Path) (name spare : Bytes)
    (parent : Location) (disk disk' : Disk) : Prop where
  places : disk.Places dir spare parent
  home_eq : disk'.home = disk.home
  free : disk.IsFree (parent ++ [spare])
  free' : disk'.IsFree (parent ++ [spare])
  own : disk'.node? (parent ++ [name]) = disk.node? (parent ++ [name]) ∨
    ∃ file file', disk.node? (parent ++ [name]) = some (.file file) ∧
      disk'.node? (parent ++ [name]) = some (.file file') ∧ related file.content file'.content
  others : ∀ location, location ≠ parent ++ [name] → location ≠ parent ++ [spare] →
    disk'.node? location = disk.node? location

namespace SameBut

variable {related : Bytes → Bytes → Prop} {spare : Bytes}

theorem refl (hplaces : disk.Places dir spare parent) (hfree : disk.IsFree (parent ++ [spare])) :
    SameBut related dir name spare parent disk disk :=
  ⟨hplaces, rfl, hfree, hfree, .inl rfl, fun _ _ _ => rfl⟩

theorem kept (h : SameBut related dir name spare parent disk disk') : disk.Kept disk' := by
  refine ⟨h.home_eq, fun location hnode => ?_⟩
  by_cases hspare : location = parent ++ [spare]
  · exact absurd (hspare ▸ hnode) h.free
  · by_cases hname : location = parent ++ [name]
    · rcases h.own with heq | ⟨file, file', hfile, -⟩
      · rw [hname, heq, ← hname, hnode]
      · rw [hname, hfile] at hnode
        exact absurd hnode (by simp)
    · rw [h.others _ hname hspare, hnode]

/-- The file of the second name may be written on the one disk. -/
theorem wrote (h : SameBut related dir name spare parent disk disk') (hne : name ≠ spare)
    (hwrote : Wrote dir spare file disk disk₁) :
    SameBut related dir name spare parent disk₁ disk' := by
  have hkept := hwrote.kept
  obtain ⟨hnode, hothers⟩ := hwrote.node?_of_walk h.places.walk_eq
  refine ⟨hkept.places h.places, h.home_eq.trans hkept.home_eq.symm, by simp [IsFree, hnode],
    h.free', ?_, ?_⟩
  · rw [hothers _ (concat_ne hne parent parent)]
    exact h.own
  · intro location hname hspare
    rw [hothers _ hspare, h.others _ hname hspare]

/-- The file of the second name may be written on the other disk. -/
theorem wrote' (h : SameBut related dir name spare parent disk disk') (hne : name ≠ spare)
    (hwrote : Wrote dir spare file disk' disk₁) :
    SameBut related dir name spare parent disk disk₁ := by
  obtain ⟨hnode, hothers⟩ := hwrote.node?_of_walk (h.kept.walk h.places.walk_eq)
  refine ⟨h.places, hwrote.kept.home_eq.trans h.home_eq, h.free, by simp [IsFree, hnode], ?_, ?_⟩
  · rw [hothers _ (concat_ne hne parent parent)]
    exact h.own
  · intro location hname hspare
    rw [hothers _ hspare, h.others _ hname hspare]

/-- With the file of the second name on both disks, there are directories and files in the same
    places. -/
theorem resembles (h : SameBut related dir name spare parent disk disk')
    (hfile : disk.node? (parent ++ [spare]) = some (.file file))
    (hfile' : disk'.node? (parent ++ [spare]) = some (.file file')) : disk.Resembles disk' := by
  refine ⟨h.home_eq, fun location => ?_⟩
  by_cases hspare : location = parent ++ [spare]
  · exact .inr ⟨file, file', hspare ▸ hfile, hspare ▸ hfile'⟩
  · by_cases hname : location = parent ++ [name]
    · rcases h.own with heq | ⟨own, own', hown, hown', -⟩
      · exact .inl (hname ▸ heq)
      · exact .inr ⟨own, own', hname ▸ hown, hname ▸ hown'⟩
    · exact .inl (h.others _ hname hspare)

/-- What is moved to the first name on both disks is what lies there. -/
theorem rename (h : SameBut related dir name spare parent disk disk')
    (hname : Path.IsFileName name) (hspare : Path.IsFileName spare) (hne : name ≠ spare)
    (hfile : disk.node? (parent ++ [spare]) = some (.file file))
    (hfile' : disk'.node? (parent ++ [spare]) = some (.file file'))
    (hrelated : related file.content file'.content)
    (hrename : disk.rename (dir.join ⟨spare⟩) (dir.join ⟨name⟩) = .ok disk₁)
    (hrename' : disk'.rename (dir.join ⟨spare⟩) (dir.join ⟨name⟩) = .ok disk₂) :
    SameBut related dir name spare parent disk₁ disk₂ := by
  have hmoved : ∀ {disk disk₁ : Disk} {file : File}, disk.Places dir spare parent →
      disk.node? (parent ++ [spare]) = some (.file file) →
      disk.rename (dir.join ⟨spare⟩) (dir.join ⟨name⟩) = .ok disk₁ →
      disk₁ = (disk.erase (parent ++ [spare])).put (parent ++ [name]) (.file file) ∧
        disk₁.Places dir spare parent := by
    intro disk disk₁ file hplaces hfile hrename
    obtain ⟨parent', hplaces', -, hfree, hfree', rfl⟩ := rename_join_eq_ok hspare hname hne
      ((inspect_join hspare).2 ⟨parent, hplaces, hfile⟩) hrename
    obtain rfl : parent = parent' :=
      Except.ok.inj (hplaces.walk_eq.symm.trans hplaces'.walk_eq)
    refine ⟨rfl, IsFree.kept_put ?_ |>.places ((Kept.erase hfree).places hplaces)⟩
    rwa [IsFree, node?_erase_of_ne (concat_ne hne parent parent)]
  obtain ⟨rfl, hplaces⟩ := hmoved h.places hfile hrename
  obtain ⟨rfl, -⟩ := hmoved (h.kept.places h.places) hfile' hrename'
  have hgone : ∀ (disk : Disk) (file : File),
      ((disk.erase (parent ++ [spare])).put (parent ++ [name]) (.file file)).IsFree
        (parent ++ [spare]) := by
    intro disk file
    rw [IsFree, node?_put_of_ne (concat_ne hne.symm parent parent), node?_erase_self (by simp)]
    simp
  refine ⟨hplaces, h.home_eq, hgone _ _, hgone _ _, .inr ⟨file, file', node?_put_self (by simp),
    node?_put_self (by simp), hrelated⟩, ?_⟩
  intro location hlocation hlocation'
  rw [node?_put_of_ne hlocation, node?_put_of_ne hlocation, node?_erase_of_ne hlocation',
    node?_erase_of_ne hlocation', h.others _ hlocation hlocation']

/-- At the path of the first name the same is seen, or related files are. -/
theorem inspect (h : SameBut related dir name spare parent disk disk')
    (hname : Path.IsFileName name) (hfine : refusal? (dir.join ⟨name⟩) = none) :
    disk'.inspect (dir.join ⟨name⟩) = disk.inspect (dir.join ⟨name⟩) ∨
      ∃ file file', disk.inspect (dir.join ⟨name⟩) = .ok (.file file) ∧
        disk'.inspect (dir.join ⟨name⟩) = .ok (.file file') ∧
        related file.content file'.content := by
  have hwalk := h.places.walk_eq
  have hwalk' := h.kept.walk hwalk
  have hsame : disk'.lookup ⟨parent, some name, false⟩ = disk.lookup ⟨parent, some name, false⟩ →
      disk'.inspect (dir.join ⟨name⟩) = disk.inspect (dir.join ⟨name⟩) := by
    intro hlookup
    unfold Disk.inspect
    rw [locate_join hname hfine, locate_join hname hfine, hwalk, hwalk']
    simp only [Except.map, bind, Except.bind, hlookup]
  by_cases hshort : name.length ≤ maxName
  · rcases h.own with heq | ⟨file, file', hfile, hfile', hrelated⟩
    · refine .inl (hsame ?_)
      simp only [Disk.lookup, Target.location, heq]
    · exact .inr ⟨file, file', (inspect_join hname).2 ⟨parent, ⟨hfine, hshort, hwalk⟩, hfile⟩,
        (inspect_join hname).2 ⟨parent, ⟨hfine, hshort, hwalk'⟩, hfile'⟩, hrelated⟩
  · refine .inl (hsame ?_)
    simp only [Disk.lookup, if_pos (Nat.lt_of_not_le hshort)]

end SameBut

end Custody.Disk
