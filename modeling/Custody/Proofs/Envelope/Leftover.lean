import Custody.Proofs.Coupling
import Custody.Proofs.Disk.Resembling
import Custody.Proofs.Envelope.Files

set_option autoImplicit false

/-! # What an unfinished saving leaves

A saving that fails leaves nothing behind but a temporary file beside the place of the file
(`Envelope.unfinished_save`). At the path itself everything is as before
(`Envelope.Unfinished.inspect_eq`), and nobody who goes on saving and loading sealed copies there
notices the temporary file, nor that a related sealed copy lies at the path: the disks go on
matching (`Envelope.Matching`, `Envelope.couples_save`, `Envelope.couples_load`). -/

namespace Custody

namespace Envelope

variable {envelope : Envelope} {path dir : Path} {last : Bytes} {parent : Location}
  {disk disk' disk₁ disk₂ : Disk} {R : Envelope → Envelope → Prop}

/-! ## A temporary file that is left behind -/

/-- The disk is another one but for a temporary file beside the place that the path leads to. -/
def Unfinished (path : Path) (disk disk' : Disk) : Prop :=
  disk' = disk ∨ ∃ (dir : Path) (last : Bytes) (file : File), path.Splits dir last ∧
    Path.IsFileName (temporaryName last) ∧ Disk.Wrote dir (temporaryName last) file disk disk'

theorem temporaryPath_eq (hsplits : path.Splits dir last)
    (hname : Path.IsFileName (temporaryName last)) :
    temporaryPath path = dir.join ⟨temporaryName last⟩ := hsplits.withSuffix_eq hname

/-- A saving that fails leaves nothing but a temporary file. -/
theorem unfinished_save {world world' : World} {fault : EnvelopeFault}
    (h : (envelope.save path).outcome world = (.error fault, world')) :
    Unfinished path world.disk world'.disk := by
  have htouched : ∀ {id : FileId} {world₁ world₂ : World} {result : Except IoError Unit},
      world.disk.create (temporaryPath path) fileMode = .ok (id, world₁.disk) →
      (World.writeFile (temporaryPath path) envelope.encode).outcome world₁ = (result, world₂) →
      Unfinished path world.disk world₂.disk := by
    intro id world₁ world₂ result hcreate hwrite
    obtain ⟨dir, last, hsplits, hlast⟩ := exists_splits_of_create hcreate
    rw [temporaryPath_eq hsplits hlast] at hcreate hwrite
    obtain ⟨file, -, hcreated⟩ := Disk.create_join hlast hcreate
    rcases World.writeFile_join hlast hwrite with ⟨hdisk, -⟩ | ⟨file', -, hwrote⟩
    · exact .inr ⟨dir, last, file, hsplits, hlast, hdisk ▸ hcreated⟩
    · exact .inr ⟨dir, last, file', hsplits, hlast, hcreated.trans hwrote⟩
  have hspec := save_spec envelope path world
  rw [h] at hspec
  cases hspec with
  | uncreated hdisk => exact .inl hdisk
  | unwritten hcreate hwrite => exact htouched hcreate hwrite
  | unmoved hcreate hwrite hdisk =>
    rw [hdisk]
    exact htouched hcreate hwrite

/-- Where the disks are the same but for the file at the path and the temporary one beside it, the
    same is seen at the path, or related files are. -/
theorem inspect_of_sameBut {related : Bytes → Bytes → Prop} (hsplits : path.Splits dir last)
    (hname : Path.IsFileName (temporaryName last))
    (hsame : Disk.SameBut related dir last (temporaryName last) parent disk disk') :
    disk'.inspect path = disk.inspect path ∨ ∃ file file', disk.inspect path = .ok (.file file) ∧
      disk'.inspect path = .ok (.file file') ∧ related file.content file'.content := by
  by_cases hempty : path.bytes = []
  · have hrefused : Disk.refusal? path = some .notFound := by
      simp [Disk.refusal?, hempty]
    rw [Disk.inspect_of_refusal hrefused, Disk.inspect_of_refusal hrefused]
    exact .inl rfl
  · have hfine : Disk.refusal? path = none :=
      Disk.refusal_of_withSuffix hempty
        ((congrArg Disk.refusal? (hsplits.withSuffix_eq hname)).trans hsame.places.refusal_eq)
    have hzero : 0 ∉ last := fun hmem => hname.zero_notMem (List.mem_append_left _ hmem)
    rcases hsplits.cases hzero with hlast | hodd
    · rw [hsplits.eq_join hlast] at hfine ⊢
      exact hsame.inspect hlast hfine
    · -- such a path shows the directory that the temporary file lies in or one above it
      obtain ⟨location, hwalk⟩ := Disk.exists_walk_of_splits hsplits hodd hsame.places.walk_eq
      rw [Disk.inspect_of_walk hfine hwalk, Disk.inspect_of_walk hfine (hsame.kept.walk hwalk)]
      exact .inl rfl

/-- What is left behind is a file in the place of the temporary one. -/
theorem Unfinished.sameBut (h : Unfinished path disk disk') (related : Bytes → Bytes → Prop) :
    disk' = disk ∨ ∃ dir last parent, path.Splits dir last ∧ Path.IsFileName (temporaryName last) ∧
      Disk.SameBut related dir last (temporaryName last) parent disk disk' := by
  rcases h with rfl | ⟨dir, last, file, hsplits, hname, hwrote⟩
  · exact .inl rfl
  · obtain ⟨parent, hplaces, hfree, -⟩ := hwrote.node?
    exact .inr ⟨dir, last, parent, hsplits, hname,
      (Disk.SameBut.refl hplaces hfree).wrote' (temporaryName_ne last).symm hwrote⟩

/-- At the path itself everything is as it was: the file with its content, or that there is none. -/
theorem Unfinished.inspect_eq (h : Unfinished path disk disk') :
    disk'.inspect path = disk.inspect path := by
  rcases h.sameBut fun _ _ => False with rfl | ⟨dir, last, parent, hsplits, hname, hsame⟩
  · rfl
  · rcases inspect_of_sameBut hsplits hname hsame with heq | ⟨_, _, -, -, hfalse⟩
    · exact heq
    · exact hfalse.elim

/-! ## Disks that match -/

/-- The contents are the same, or those of files of related sealed copies. -/
def Copies (R : Envelope → Envelope → Prop) (content content' : Bytes) : Prop :=
  content' = content ∨
    ∃ envelope envelope', R envelope envelope' ∧ content = envelope.encode ∧
      content' = envelope'.encode

/-- The disks are the same but for a temporary file, and for related sealed copies at the path. -/
def Matching (R : Envelope → Envelope → Prop) (path : Path) (disk disk' : Disk) : Prop :=
  disk' = disk ∨ ∃ dir last parent, path.Splits dir last ∧ Path.IsFileName (temporaryName last) ∧
    Disk.SameBut (Copies R) dir last (temporaryName last) parent disk disk'

theorem Unfinished.matching (h : Unfinished path disk disk') : Matching R path disk disk' :=
  h.sameBut (Copies R)

namespace Matching

/-- At the path files with related contents are seen, or the same that is no file. -/
theorem inspect (h : Matching R path disk disk') :
    (∃ file file', disk.inspect path = .ok (.file file) ∧ disk'.inspect path = .ok (.file file') ∧
      Copies R file.content file'.content) ∨
    (disk'.inspect path = disk.inspect path ∧ ∀ file, disk.inspect path ≠ .ok (.file file)) := by
  have hlook : disk'.inspect path = disk.inspect path ∨ ∃ file file',
      disk.inspect path = .ok (.file file) ∧ disk'.inspect path = .ok (.file file') ∧
        Copies R file.content file'.content := by
    rcases h with rfl | ⟨dir, last, parent, hsplits, hname, hsame⟩
    · exact .inl rfl
    · exact inspect_of_sameBut hsplits hname hsame
  rcases hlook with heq | hfiles
  · by_cases hfile : ∃ file, disk.inspect path = .ok (.file file)
    · obtain ⟨file, hfile⟩ := hfile
      exact .inl ⟨file, file, hfile, heq.trans hfile, .inl rfl⟩
    · exact .inr ⟨heq, fun file hfile' => hfile ⟨file, hfile'⟩⟩
  · exact .inl hfiles

end Matching

/-- The disks match, with a temporary file of the contents on either of them. -/
def Staged (R : Envelope → Envelope → Prop) (path : Path) (content content' : Bytes)
    (disk disk' : Disk) : Prop :=
  ∃ dir last parent file file', path.Splits dir last ∧ Path.IsFileName (temporaryName last) ∧
    Disk.SameBut (Copies R) dir last (temporaryName last) parent disk disk' ∧
    disk.node? (parent ++ [temporaryName last]) = some (.file file) ∧ file.content = content ∧
    disk'.node? (parent ++ [temporaryName last]) = some (.file file') ∧ file'.content = content'

theorem Staged.matching {content content' : Bytes}
    (h : Staged R path content content' disk disk') : Matching R path disk disk' := by
  obtain ⟨dir, last, parent, _, _, hsplits, hname, hsame, -⟩ := h
  exact .inr ⟨dir, last, parent, hsplits, hname, hsame⟩

/-- The temporary file is written on both disks. -/
theorem staged_of_wrote {file file' : File} (hsplits : path.Splits dir last)
    (hname : Path.IsFileName (temporaryName last))
    (hsame : Disk.SameBut (Copies R) dir last (temporaryName last) parent disk disk')
    (hwrote : Disk.Wrote dir (temporaryName last) file disk disk₁)
    (hwrote' : Disk.Wrote dir (temporaryName last) file' disk' disk₂) :
    Staged R path file.content file'.content disk₁ disk₂ := by
  have hne := (temporaryName_ne last).symm
  have hwalk := hsame.places.walk_eq
  exact ⟨dir, last, parent, file, file', hsplits, hname,
    (hsame.wrote hne hwrote).wrote' hne hwrote',
    (hwrote.node?_of_walk hwalk).1, rfl, (hwrote'.node?_of_walk (hsame.kept.walk hwalk)).1, rfl⟩

/-- The temporary file is made on both disks, or on neither. -/
theorem Matching.create (h : Matching R path disk disk') (mode : Nat) :
    (∃ id id' disk₁ disk₂, disk.create (temporaryPath path) mode = .ok (id, disk₁) ∧
      disk'.create (temporaryPath path) mode = .ok (id', disk₂) ∧ True ∧
      ∃ content content', Staged R path content content' disk₁ disk₂) ∨
    ∃ error, disk.create (temporaryPath path) mode = .error error ∧
      disk'.create (temporaryPath path) mode = .error error := by
  rcases h with rfl | ⟨dir, last, parent, hsplits, hname, hsame⟩
  · cases hcreate : disk'.create (temporaryPath path) mode with
    | error error => exact .inr ⟨error, rfl, rfl⟩
    | ok made =>
      obtain ⟨id, disk₁⟩ := made
      obtain ⟨dir, last, hsplits, hname⟩ := exists_splits_of_create hcreate
      rw [temporaryPath_eq hsplits hname] at hcreate
      obtain ⟨_, -, hwrote⟩ := Disk.create_join hname hcreate
      obtain ⟨parent, hplaces, hfree, -⟩ := hwrote.node?
      exact .inl ⟨id, id, disk₁, disk₁, rfl, rfl, trivial, _, _,
        staged_of_wrote hsplits hname (.refl hplaces hfree) hwrote hwrote⟩
  · rw [temporaryPath_eq hsplits hname]
    obtain ⟨id, disk₁, hcreate⟩ := Disk.exists_create_join hname hsame.places hsame.free mode
    obtain ⟨id', disk₂, hcreate'⟩ :=
      Disk.exists_create_join hname (hsame.kept.places hsame.places) hsame.free' mode
    obtain ⟨_, -, hwrote⟩ := Disk.create_join hname hcreate
    obtain ⟨_, -, hwrote'⟩ := Disk.create_join hname hcreate'
    exact .inl ⟨id, id', disk₁, disk₂, hcreate, hcreate', trivial, _, _,
      staged_of_wrote hsplits hname hsame hwrote hwrote'⟩

/-- A temporary file is written on both disks, with any contents. -/
theorem Staged.write {content content' : Bytes} (h : Staged R path content content' disk disk')
    (bytes bytes' : Bytes) : ∃ disk₁ disk₂, disk.write (temporaryPath path) bytes = .ok disk₁ ∧
      disk'.write (temporaryPath path) bytes' = .ok disk₂ ∧
      Staged R path bytes bytes' disk₁ disk₂ := by
  obtain ⟨dir, last, parent, file, file', hsplits, hname, hsame, hfile, -, hfile', -⟩ := h
  rw [temporaryPath_eq hsplits hname]
  have hplaces' := hsame.kept.places hsame.places
  obtain ⟨disk₁, hwrite⟩ :=
    Disk.exists_write_join hname ((Disk.inspect_join hname).2 ⟨parent, hsame.places, hfile⟩) bytes
  obtain ⟨disk₂, hwrite'⟩ :=
    Disk.exists_write_join hname ((Disk.inspect_join hname).2 ⟨parent, hplaces', hfile'⟩) bytes'
  obtain ⟨_, rfl, hwrote⟩ := Disk.write_join hname hwrite
  obtain ⟨_, rfl, hwrote'⟩ := Disk.write_join hname hwrite'
  exact ⟨disk₁, disk₂, hwrite, hwrite', staged_of_wrote hsplits hname hsame hwrote hwrote'⟩

/-- Temporary files of related sealed copies are put in place on both disks, or on neither. -/
theorem Staged.rename {content content' : Bytes} (h : Staged R path content content' disk disk')
    (hcopies : Copies R content content') :
    (∃ disk₁ disk₂, disk.rename (temporaryPath path) path = .ok disk₁ ∧
      disk'.rename (temporaryPath path) path = .ok disk₂ ∧ Matching R path disk₁ disk₂) ∨
    ∃ error, disk.rename (temporaryPath path) path = .error error ∧
      disk'.rename (temporaryPath path) path = .error error := by
  obtain ⟨dir, last, parent, file, file', hsplits, hname, hsame, hfile, rfl, hfile', rfl⟩ := h
  rw [temporaryPath_eq hsplits hname]
  have hplaces' := hsame.kept.places hsame.places
  have hseen := (Disk.inspect_join hname).2 ⟨parent, hsame.places, hfile⟩
  have hseen' := (Disk.inspect_join hname).2 ⟨parent, hplaces', hfile'⟩
  have hrename := (hsame.resembles hfile hfile').rename path hseen hseen'
  cases hdone : disk.rename (dir.join ⟨temporaryName last⟩) path with
  | error error =>
    rw [hdone] at hrename
    exact .inr ⟨error, rfl, Act.eq_error_of_map hrename⟩
  | ok disk₁ =>
    rw [hdone] at hrename
    obtain ⟨disk₂, hdone', -⟩ := Act.exists_of_map_eq_ok hrename
    refine .inl ⟨disk₁, disk₂, rfl, hdone', .inr ⟨dir, last, parent, hsplits, hname, ?_⟩⟩
    have hlast := hsplits.isFileName (Disk.exists_join_of_rename hseen hdone)
    rw [hsplits.eq_join hlast] at hdone hdone'
    exact hsame.rename hlast hname (temporaryName_ne last).symm hfile hfile' hcopies hdone hdone'

end Envelope

/-! ## Steps on disks that match -/

namespace World

variable {α : Type} {R R' F : Disk → Disk → Prop}

/-- The worlds differ at most in their disks, and these belong together. -/
def Differ (R : Disk → Disk → Prop) (world world' : World) : Prop :=
  ∃ disk, R world.disk disk ∧ world' = { world with disk }

theorem couples_attempt {answers : α → α → Prop} {step : IoStep}
    {operation : Disk → Except IoError (α × Disk)}
    (hfailed : ∀ disk disk', R disk disk' → F disk disk')
    (h : ∀ disk disk', R disk disk' →
      (∃ a a' disk₁ disk₂, operation disk = .ok (a, disk₁) ∧ operation disk' = .ok (a', disk₂) ∧
        answers a a' ∧ R' disk₁ disk₂) ∨
      ∃ error, operation disk = .error error ∧ operation disk' = .error error) :
    Act.Couples (Differ R) answers (Differ R') (Differ F) (attempt step operation)
      (attempt step operation) := by
  rintro world _ ⟨disk', hdisk, rfl⟩
  rw [outcome_attempt, outcome_attempt]
  dsimp only
  cases world.faults world.steps step with
  | some fault => exact .failed _ ⟨disk', hfailed _ _ hdisk, rfl⟩
  | none =>
    rcases h _ _ hdisk with ⟨a, a', disk₁, disk₂, hok, hok', hanswers, hdisk₁⟩ |
      ⟨error, herror, herror'⟩
    · simp only [hok, hok']
      exact .answered hanswers ⟨disk₂, hdisk₁, rfl⟩
    · simp only [herror, herror']
      exact .failed _ ⟨disk', hfailed _ _ hdisk, rfl⟩

theorem couples_change {step : IoStep} {operation : Disk → Except IoError Disk}
    (hfailed : ∀ disk disk', R disk disk' → F disk disk')
    (h : ∀ disk disk', R disk disk' →
      (∃ disk₁ disk₂, operation disk = .ok disk₁ ∧ operation disk' = .ok disk₂ ∧ R' disk₁ disk₂) ∨
      ∃ error, operation disk = .error error ∧ operation disk' = .error error) :
    Act.Couples (Differ R) Eq (Differ R') (Differ F) (change step operation)
      (change step operation) := by
  refine couples_attempt hfailed fun disk disk' hdisk => ?_
  rcases h disk disk' hdisk with ⟨disk₁, disk₂, hok, hok', hdisk₁⟩ | ⟨error, herror, herror'⟩
  · exact .inl ⟨(), (), disk₁, disk₂, congrArg _ hok, congrArg _ hok', rfl, hdisk₁⟩
  · exact .inr ⟨error, congrArg _ herror, congrArg _ herror'⟩

/-- A file that is there on both disks is written on both, with the same content or not. -/
theorem couples_writeFile {path : Path} {W : Bytes → Bytes → Disk → Disk → Prop}
    (hfailed : ∀ bytes bytes' disk disk', W bytes bytes' disk disk' → F disk disk')
    (h : ∀ disk disk' bytes bytes', R disk disk' →
      ∃ disk₁ disk₂, disk.write path bytes = .ok disk₁ ∧ disk'.write path bytes' = .ok disk₂ ∧
        W bytes bytes' disk₁ disk₂) (content content' : Bytes) :
    Act.Couples (Differ R) Eq (Differ (W content content')) (Differ F) (writeFile path content)
      (writeFile path content') := by
  rintro world _ ⟨disk', hdisk, rfl⟩
  unfold writeFile
  rw [Act.outcome_mk, Act.outcome_mk]
  dsimp only
  cases world.faults world.steps .write with
  | some fault =>
    obtain ⟨disk₁, disk₂, hok, hok', hdisk₁⟩ := h _ _ (content.take fault.written)
      (content'.take fault.written) hdisk
    simp only [hok, hok']
    exact .failed _ ⟨disk₂, hfailed _ _ _ _ hdisk₁, rfl⟩
  | none =>
    obtain ⟨disk₁, disk₂, hok, hok', hdisk₁⟩ := h _ _ content content' hdisk
    simp only [hok, hok']
    exact .answered rfl ⟨disk₂, hdisk₁, rfl⟩

end World

/-! ## Saving and loading on disks that match -/

namespace Envelope

variable {R : Envelope → Envelope → Prop} {content content' : Bytes}

/-- Related sealed copies are saved on both disks, or on neither and for the same reason. -/
theorem couples_save {envelope envelope' : Envelope} (hR : R envelope envelope') (path : Path) :
    Act.Couples (World.Differ (Matching R path)) Eq (World.Differ (Matching R path))
      (World.Differ (Matching R path)) (envelope.save path) (envelope'.save path) := by
  have hfailed : ∀ bytes bytes' disk disk', Staged R path bytes bytes' disk disk' →
      Matching R path disk disk' := fun _ _ _ _ h => h.matching
  have hsync : Act.Couples (World.Differ (Staged R path envelope.encode envelope'.encode)) Eq
      (World.Differ (Staged R path envelope.encode envelope'.encode))
      (World.Differ (Matching R path)) (World.change .sync .ok) (World.change .sync .ok) :=
    World.couples_change (hfailed _ _) fun disk disk' h => .inl ⟨disk, disk', rfl, rfl, h⟩
  unfold save
  dsimp only
  refine .bind (.mapError (World.couples_attempt (fun _ _ => id)
    fun _ _ h => h.create fileMode) _) fun _ _ _ => ?_
  refine .bind_eq (.mapError (World.couples_writeFile hfailed (fun _ _ bytes bytes' h => ?_) _ _) _)
    fun _ => .bind_eq (hsync.mapError _) fun _ => ?_
  · obtain ⟨_, _, h⟩ := h
    exact h.write bytes bytes'
  · exact .mapError (World.couples_change (hfailed _ _)
      fun _ _ h => h.rename (.inr ⟨envelope, envelope', hR, rfl, rfl⟩)) _

/-- Files of the sealed copies are read alike, or refused alike. -/
structure ReadAlike (envelope envelope' : Envelope) : Prop where
  version_eq : envelope'.version = envelope.version
  size : envelope'.fileSize = envelope.fileSize ∨ envelope.Fits ∧ envelope'.Fits

/-- Related files are too large alike. -/
theorem Copies.size (h : Copies R content content')
    (hread : ∀ envelope envelope', R envelope envelope' → envelope.ReadAlike envelope') :
    content'.length = content.length ∨
      content.length ≤ maxFileSize ∧ content'.length ≤ maxFileSize := by
  rcases h with rfl | ⟨envelope, envelope', hR, rfl, rfl⟩
  · exact .inl rfl
  · rw [length_encode, length_encode]
    exact (hread _ _ hR).size

/-- Related files are taken for related sealed copies, or for none. -/
theorem Copies.ofFile (h : Copies R content content')
    (hrefl : ∀ envelope, R envelope envelope)
    (hread : ∀ envelope envelope', R envelope envelope' → envelope.ReadAlike envelope')
    (hfits : content.length ≤ maxFileSize) (hfits' : content'.length ≤ maxFileSize) :
    (∃ envelope envelope', ofFile content = .ok envelope ∧ ofFile content' = .ok envelope' ∧
      R envelope envelope') ∨
    ∃ fault, ofFile content = .error fault ∧ ofFile content' = .error fault := by
  rcases h with rfl | ⟨envelope, envelope', hR, rfl, rfl⟩
  · cases Envelope.ofFile content' with
    | error fault => exact .inr ⟨fault, rfl, rfl⟩
    | ok envelope => exact .inl ⟨envelope, envelope, rfl, rfl, hrefl envelope⟩
  · rw [length_encode] at hfits hfits'
    rw [Fits.ofFile_encode hfits, Fits.ofFile_encode hfits', (hread _ _ hR).version_eq]
    split
    · exact .inr ⟨_, rfl, rfl⟩
    · exact .inl ⟨_, _, rfl, rfl, hR⟩

/-- Related sealed copies are loaded from both disks, or nothing is and for the same reason. -/
theorem couples_load (hrefl : ∀ envelope, R envelope envelope)
    (hread : ∀ envelope envelope', R envelope envelope' → envelope.ReadAlike envelope')
    (path : Path) :
    Act.Couples (World.Differ (Matching R path)) R (World.Differ (Matching R path))
      (World.Differ (Matching R path)) (load path) (load path) := by
  rintro world _ ⟨disk', hdisk, rfl⟩
  have hworld : ∀ steps, World.Differ (Matching R path) { world with steps }
      { world with disk := disk', steps } := fun _ => ⟨disk', hdisk, rfl⟩
  rw [outcome_load, outcome_load]
  dsimp only
  cases world.faults world.steps .inspect with
  | some fault => exact .failed _ (hworld _)
  | none =>
    rcases hdisk.inspect with ⟨file, file', hfile, hfile', hcopies⟩ | ⟨heq, hnone⟩
    · rw [hfile, hfile']
      have hsize := hcopies.size hread
      by_cases hlarge : maxFileSize < file.content.length
      · have hsame : file'.content.length = file.content.length := by omega
        simp only [hsame, if_pos hlarge]
        exact .failed _ (hworld _)
      · have hlarge' : ¬ maxFileSize < file'.content.length := by omega
        simp only [if_neg hlarge, if_neg hlarge']
        cases world.faults (world.steps + 1) .read with
        | some fault => exact .failed _ (hworld _)
        | none =>
          rcases hcopies.ofFile hrefl hread (Nat.le_of_not_lt hlarge) (Nat.le_of_not_lt hlarge')
            with ⟨envelope, envelope', hok, hok', hR⟩ | ⟨fault, hfault, hfault'⟩
          · simp only [hok, hok']
            exact .answered hR (hworld _)
          · simp only [hfault, hfault']
            exact .failed _ (hworld _)
    · rw [heq]
      cases hnode : world.disk.inspect path with
      | error error => exact .failed _ (hworld _)
      | ok node =>
        cases node with
        | directory => exact .failed _ (hworld _)
        | file file => exact absurd hnode (hnone file)

end Envelope

end Custody
