import Custody.Envelope.File
import Custody.Proofs.Disk.Identity
import Custody.Proofs.Envelope.Sealing

set_option autoImplicit false

/-! # What is saved is loaded

Saving a sealed copy replaces the file at its path as a whole or not at all, whatever step fails,
and touches no other file than a temporary one beside it: `Envelope.Saved`. Loading takes from a
file nothing but the sealed copy in it (`Envelope.load_spec`), so that what was saved is loaded, if
it is not too large: `Envelope.load_of_save`. -/

namespace Custody

/-- What can be seen at the path is the same later, and nothing fails any more. -/
structure World.Undisturbed (path : Path) (world later : World) : Prop where
  inspect_eq : later.disk.inspect path = world.disk.inspect path
  calm : later.faults = .none

/-! ## Saving -/

namespace Envelope

/-- The name of the temporary file beside a file. -/
def temporaryName (name : Bytes) : Bytes := name ++ Utf8.encode ".tmp"

theorem isFileName_temporaryName {name : Bytes} (hslash : Path.slash ∉ name) (hzero : 0 ∉ name) :
    Path.IsFileName (temporaryName name) := by
  have hslash' : Path.slash ∉ Utf8.encode ".tmp" := by decide
  have hzero' : 0 ∉ Utf8.encode ".tmp" := by decide
  unfold temporaryName
  refine Path.isFileName_of_length ?_ ?_ ?_
  · simp [hslash, hslash']
  · simp [hzero, hzero']
  · rw [List.length_append, show (Utf8.encode ".tmp").length = 4 from rfl]
    omega

theorem temporaryName_ne (name : Bytes) : temporaryName name ≠ name := by
  intro heq
  have hlength := congrArg List.length heq
  rw [temporaryName, List.length_append, show (Utf8.encode ".tmp").length = 4 from rfl] at hlength
  omega

theorem temporaryPath_join {name : Bytes} (h : Path.IsFileName name) (dir : Path) :
    temporaryPath (dir.join ⟨name⟩) = dir.join ⟨temporaryName name⟩ :=
  Path.withSuffix_join h dir ".tmp"

/-- A file that is created and written in a directory leaves the others alone, however it is
    written. -/
theorem spares_write {dir : Path} {name other : Bytes} (hname : Path.IsFileName name)
    (hother : Path.IsFileName other) (hne : other ≠ name) {mode : Nat} {content : Bytes}
    {id : FileId} {world world₁ world₂ : World} {result : Except IoError Unit}
    (hcreate : world.disk.create (dir.join ⟨name⟩) mode = .ok (id, world₁.disk))
    (hwrite : (World.writeFile (dir.join ⟨name⟩) content).outcome world₁ = (result, world₂)) :
    Disk.Spares (dir.join ⟨other⟩) world.disk world₂.disk := by
  obtain ⟨file, -, hcreated⟩ := Disk.create_join hname hcreate
  refine (hcreated.spares hother hne).trans ?_
  rcases World.writeFile_join hname hwrite with ⟨hdisk, -⟩ | ⟨file, -, hwrote⟩
  · exact Disk.Spares.of_eq hdisk
  · exact hwrote.spares hother hne

/-- A file that has been written is there. -/
theorem exists_file_of_write {dir : Path} {name : Bytes} (hname : Path.IsFileName name)
    {content : Bytes} {world world' : World}
    (hwrite : (World.writeFile (dir.join ⟨name⟩) content).outcome world = (.ok (), world')) :
    ∃ file : File, file.content = content ∧
      world'.disk.inspect (dir.join ⟨name⟩) = .ok (.file file) := by
  rcases World.writeFile_join hname hwrite with ⟨-, hnot⟩ | ⟨file, hcontent, hwrote⟩
  · exact absurd rfl hnot
  · exact ⟨file, hcontent rfl, hwrote.inspect_eq hname⟩

/-- How saving a sealed copy ends: whatever fails, the temporary file is all that has been touched
    by then, and the whole copy is in it before it is moved. -/
inductive Save (envelope : Envelope) (path : Path) (world : World) :
    Except EnvelopeFault Unit × World → Prop
  | uncreated {fault : EnvelopeFault} {world' : World} (hdisk : world'.disk = world.disk) :
    Save envelope path world (.error fault, world')
  | unwritten {fault : EnvelopeFault} {id : FileId} {world₁ world' : World} {error : IoError}
    (hcreate : world.disk.create (temporaryPath path) fileMode = .ok (id, world₁.disk))
    (hwrite : (World.writeFile (temporaryPath path) envelope.encode).outcome world₁ =
      (.error error, world')) : Save envelope path world (.error fault, world')
  | unmoved {fault : EnvelopeFault} {id : FileId} {world₁ world₂ world' : World}
    (hcreate : world.disk.create (temporaryPath path) fileMode = .ok (id, world₁.disk))
    (hwrite : (World.writeFile (temporaryPath path) envelope.encode).outcome world₁ =
      (.ok (), world₂)) (hdisk : world'.disk = world₂.disk) :
    Save envelope path world (.error fault, world')
  | saved {id : FileId} {world₁ world₂ world' : World}
    (hcreate : world.disk.create (temporaryPath path) fileMode = .ok (id, world₁.disk))
    (hwrite : (World.writeFile (temporaryPath path) envelope.encode).outcome world₁ =
      (.ok (), world₂))
    (hrename : world₂.disk.rename (temporaryPath path) path = .ok world'.disk) :
    Save envelope path world (.ok (), world')

theorem save_spec (envelope : Envelope) (path : Path) (world : World) :
    Save envelope path world ((envelope.save path).outcome world) := by
  unfold save
  dsimp only
  rw [Act.outcome_bind, Act.outcome_mapError]
  rcases hcreate : (World.attempt .create (·.create (temporaryPath path) fileMode)).outcome world
    with ⟨error | id, world₁⟩
  · exact .uncreated (World.disk_of_attempt_error hcreate)
  · simp only [Except.mapError]
    rw [Act.outcome_bind, Act.outcome_mapError]
    rcases hwrite : (World.writeFile (temporaryPath path) envelope.encode).outcome world₁
      with ⟨error | _, world₂⟩
    · exact .unwritten (World.disk_of_attempt_ok hcreate) hwrite
    · simp only [Except.mapError]
      rw [Act.outcome_bind, Act.outcome_mapError]
      rcases hsync : (World.change .sync .ok).outcome world₂ with ⟨error | _, world₃⟩
      · exact .unmoved (World.disk_of_attempt_ok hcreate) hwrite (World.disk_of_attempt_error hsync)
      · have hdisk : world₂.disk = world₃.disk := Except.ok.inj (World.disk_of_change_ok hsync)
        simp only [Except.mapError]
        rw [Act.outcome_mapError]
        rcases hrename : (World.change .rename (·.rename (temporaryPath path) path)).outcome world₃
          with ⟨error | _, world₄⟩
        · exact .unmoved (World.disk_of_attempt_ok hcreate) hwrite
            ((World.disk_of_attempt_error hrename).trans hdisk.symm)
        · exact .saved (World.disk_of_attempt_ok hcreate) hwrite
            (hdisk ▸ World.disk_of_change_ok hrename)

/-- Saving has failed as soon as the temporary file cannot be made. -/
theorem outcome_save_of_fault {envelope : Envelope} {path : Path} {world : World} {fault : Fault}
    (hfault : world.faults world.steps .create = some fault) :
    (envelope.save path).outcome world =
      (.error (.uncreatable (temporaryPath path) fault.error),
        { world with steps := world.steps + 1 }) := by
  unfold save
  dsimp only
  rw [Act.outcome_bind, Act.outcome_mapError, World.outcome_attempt, hfault]
  rfl

/-- What saving a sealed copy at the path of a file in a directory does to the disk: on success the
    file is the sealed copy, on failure it is what it was, and every other file is left alone. -/
structure Saved (envelope : Envelope) (dir : Path) (name : Bytes) (disk disk' : Disk)
    (result : Except EnvelopeFault Unit) : Prop where
  others : ∀ other, Path.IsFileName other → other ≠ name → other ≠ temporaryName name →
    Disk.Spares (dir.join ⟨other⟩) disk disk'
  whole : result = .ok () → ∃ file : File, file.content = envelope.encode ∧
    disk'.inspect (dir.join ⟨name⟩) = .ok (.file file)
  kept : result ≠ .ok () → Disk.Spares (dir.join ⟨name⟩) disk disk'

section Saved

variable {envelope : Envelope} {dir : Path} {name : Bytes} {disk disk' : Disk}

/-- Saving fails after nothing but the temporary file has been touched. -/
theorem Saved.of_error (hname : Path.IsFileName name) {fault : EnvelopeFault}
    (h : ∀ other, Path.IsFileName other → other ≠ temporaryName name →
      Disk.Spares (dir.join ⟨other⟩) disk disk') :
    Saved envelope dir name disk disk' (.error fault) :=
  ⟨fun other hother _ hne => h other hother hne, by simp,
    fun _ => h name hname (temporaryName_ne name).symm⟩

theorem saved_save (hname : Path.IsFileName name) {world world' : World}
    {result : Except EnvelopeFault Unit}
    (h : (envelope.save (dir.join ⟨name⟩)).outcome world = (result, world')) :
    Saved envelope dir name world.disk world'.disk result := by
  have htemporary := isFileName_temporaryName hname.slash_notMem hname.zero_notMem
  have hne := (temporaryName_ne name).symm
  have hspec := save_spec envelope (dir.join ⟨name⟩) world
  rw [h] at hspec
  cases hspec with
  | uncreated hdisk => exact .of_error hname fun _ _ _ => Disk.Spares.of_eq hdisk
  | unwritten hcreate hwrite =>
    rw [temporaryPath_join hname] at hcreate hwrite
    exact .of_error hname fun _ hother hne => spares_write htemporary hother hne hcreate hwrite
  | unmoved hcreate hwrite hdisk =>
    rw [temporaryPath_join hname] at hcreate hwrite
    rw [hdisk]
    exact .of_error hname fun _ hother hne => spares_write htemporary hother hne hcreate hwrite
  | saved hcreate hwrite hrename =>
    -- the one step that touches the file itself puts the whole copy there
    rw [temporaryPath_join hname] at hcreate hwrite hrename
    obtain ⟨file, hcontent, hfile⟩ := exists_file_of_write htemporary hwrite
    refine ⟨?_, ?_, fun hnot => absurd rfl hnot⟩
    · intro other hother hother₁ hother₂
      exact (spares_write htemporary hother hother₂ hcreate hwrite).trans
        (Disk.spares_rename_join htemporary hname hne hfile hrename hother hother₂ hother₁)
    · intro _
      exact ⟨file, hcontent, Disk.inspect_rename_join htemporary hname hne hfile hrename⟩

/-- Whatever a path ends with, the path of the temporary file ends with a temporary name. -/
theorem exists_splits_of_create {path : Path} {mode : Nat} {id : FileId}
    (hcreate : disk.create (temporaryPath path) mode = .ok (id, disk')) :
    ∃ dir last, path.Splits dir last ∧ Path.IsFileName (temporaryName last) := by
  obtain ⟨target, hlocate, -⟩ := Disk.exists_of_bind_eq_ok hcreate
  have hzero := Disk.zero_notMem_of_locate hlocate
  obtain ⟨dir, last, hsplits⟩ := path.exists_splits
  refine ⟨dir, last, hsplits, isFileName_temporaryName hsplits.slash_notMem fun hmem => hzero ?_⟩
  show 0 ∈ path.bytes ++ Utf8.encode ".tmp"
  rw [hsplits.bytes_eq]
  exact List.mem_append_left _ (List.mem_append_right _ hmem)

theorem exists_join_of_create {path : Path} {mode : Nat} {id : FileId}
    (hcreate : disk.create (temporaryPath path) mode = .ok (id, disk')) :
    ∃ (dir : Path) (last : Bytes), Path.IsFileName (temporaryName last) ∧
      temporaryPath path = dir.join ⟨temporaryName last⟩ := by
  obtain ⟨dir, last, hsplits, htemporary⟩ := exists_splits_of_create hcreate
  exact ⟨dir, last, htemporary, hsplits.withSuffix_eq htemporary⟩

/-- A sealed copy can be saved only at the path of a file in a directory. -/
theorem exists_join_of_save {path : Path} {world world' : World}
    (h : (envelope.save path).outcome world = (.ok (), world')) :
    ∃ (dir : Path) (name : Bytes), Path.IsFileName name ∧ path = dir.join ⟨name⟩ := by
  have hspec := save_spec envelope path world
  rw [h] at hspec
  cases hspec with
  | saved hcreate hwrite hrename =>
    obtain ⟨dir, last, hlast, hpath⟩ := exists_join_of_create hcreate
    rw [hpath] at hwrite hrename
    obtain ⟨file, -, hfile⟩ := exists_file_of_write hlast hwrite
    exact Disk.exists_join_of_rename hfile hrename

/-- What is saved is there: the file at the path is the sealed copy. -/
theorem exists_file_of_save {path : Path} {world world' : World}
    (h : (envelope.save path).outcome world = (.ok (), world')) :
    ∃ file : File, world'.disk.inspect path = .ok (.file file) ∧
      file.content = envelope.encode := by
  obtain ⟨dir, name, hname, rfl⟩ := exists_join_of_save h
  obtain ⟨file, hcontent, hfile⟩ := (saved_save hname h).whole rfl
  exact ⟨file, hfile, hcontent⟩

/-- A file that is neither saved to nor a temporary one stays the file that it is. -/
theorem leaves_save {path : Path} {other : Bytes} {world world' : World}
    {result : Except EnvelopeFault Unit} (hpath : ∀ dir : Path, path ≠ dir.join ⟨other⟩)
    (htemporary : ∀ name, temporaryName name ≠ other)
    (h : (envelope.save path).outcome world = (result, world')) :
    Disk.Leaves other world.disk world'.disk := by
  have hspec := save_spec envelope path world
  rw [h] at hspec
  cases hspec with
  | uncreated hdisk => exact .of_eq hdisk
  | unwritten hcreate hwrite =>
    exact (Disk.leaves_create hcreate).trans (World.leaves_writeFile hwrite)
  | unmoved hcreate hwrite hdisk =>
    rw [hdisk]
    exact (Disk.leaves_create hcreate).trans (World.leaves_writeFile hwrite)
  | saved hcreate hwrite hrename =>
    refine ((Disk.leaves_create hcreate).trans (World.leaves_writeFile hwrite)).trans ?_
    obtain ⟨dir, name, hname, rfl⟩ := exists_join_of_save h
    have hname' := isFileName_temporaryName hname.slash_notMem hname.zero_notMem
    rw [temporaryPath_join hname] at hwrite hrename
    obtain ⟨file, -, hfile⟩ := exists_file_of_write hname' hwrite
    refine Disk.leaves_rename_join hname' hname (temporaryName_ne name).symm hfile hrename
      (htemporary name) ?_
    rintro rfl
    exact hpath dir rfl

end Saved

/-! ## Loading -/

/-- The bytes of the file of a sealed copy: 80 of them stand before the ciphertext. -/
def fileSize (envelope : Envelope) : Nat := 80 + envelope.ciphertext.length

/-- The file of the sealed copy is not too large to be read. -/
def Fits (envelope : Envelope) : Prop := envelope.fileSize ≤ maxFileSize

instance (envelope : Envelope) : Decidable envelope.Fits :=
  inferInstanceAs (Decidable (envelope.fileSize ≤ maxFileSize))

theorem length_encode (envelope : Envelope) : envelope.encode.length = envelope.fileSize := by
  simp only [encode, fileSize, Binary.encodeUInt32, Binary.encodeBytes, Binary.encodeLength,
    List.length_append, Bytes.length_ofNat, envelope.kdf.salt.property, envelope.nonce.property]
  omega

section Load

variable {path : Path} {world world' : World} {envelope : Envelope} {file : File}

/-- The file is the sealed copy, of the version that is read. -/
def IsFile (envelope : Envelope) (file : File) : Prop :=
  file.content = envelope.encode ∧ envelope.version = currentVersion

/-- What is not too large is decoded. -/
theorem Fits.run_decode (h : envelope.Fits) : decode.run envelope.encode = .ok envelope := by
  have hlength : envelope.ciphertext.length < 2 ^ 64 := by
    unfold Fits fileSize maxFileSize at h
    omega
  exact exact.run_encode hlength

theorem IsFile.fits (h : envelope.IsFile file) (hfits : file.content.length ≤ maxFileSize) :
    envelope.Fits := by
  rwa [h.1, length_encode] at hfits

theorem IsFile.run_decode (h : envelope.IsFile file) (hfits : file.content.length ≤ maxFileSize) :
    decode.run file.content = .ok envelope := by
  rw [h.1]
  exact (h.fits hfits).run_decode

/-- What has been decoded of a file that is not too large is not too large. -/
theorem fits_of_run_decode {content : Bytes} (h : decode.run content = .ok envelope)
    (hfits : content.length ≤ maxFileSize) : envelope.Fits := by
  obtain ⟨-, rest, rfl⟩ := exact.run_eq_ok_iff.1 h
  rw [List.length_append, length_encode] at hfits
  exact Nat.le_of_add_right_le hfits

/-- What the bytes of a file are taken for. -/
def ofFile (content : Bytes) : Except EnvelopeFault Envelope :=
  match decode.run content with
  | .error fault => .error (.malformed fault)
  | .ok envelope =>
    if envelope.version ≠ currentVersion then .error (.version envelope.version) else .ok envelope

/-- Loading looks at the file and then reads it; looking has left it as it was. -/
theorem outcome_load (path : Path) (world : World) : (load path).outcome world =
    match world.faults world.steps .inspect with
    | some fault => (.error (.unreadable path fault.error), { world with steps := world.steps + 1 })
    | none =>
      match world.disk.inspect path with
      | .error error => (.error (.unreadable path error), { world with steps := world.steps + 1 })
      | .ok .directory => (.error (.notAFile path), { world with steps := world.steps + 1 })
      | .ok (.file file) =>
        if maxFileSize < file.content.length then
          (.error (.tooLarge file.content.length), { world with steps := world.steps + 1 })
        else
          match world.faults (world.steps + 1) .read with
          | some fault =>
            (.error (.unreadable path fault.error), { world with steps := world.steps + 1 + 1 })
          | none => (ofFile file.content, { world with steps := world.steps + 1 + 1 }) := by
  unfold load
  rw [Act.outcome_bind, Act.outcome_mapError, World.outcome_observe]
  cases world.faults world.steps .inspect with
  | some fault => rfl
  | none =>
    cases hinspect : world.disk.inspect path with
    | error error => rfl
    | ok node =>
      cases node with
      | directory => rfl
      | file file =>
        have hread : world.disk.read path = .ok file.content := by
          unfold Disk.read
          rw [hinspect]
          rfl
        simp only [Except.mapError]
        rw [Act.outcome_ite]
        split
        · rfl
        · rw [Act.outcome_bind, Act.outcome_mapError, World.outcome_observe]
          dsimp only
          cases world.faults (world.steps + 1) .read with
          | some fault => rfl
          | none =>
            simp only [hread, Except.mapError, ofFile]
            cases decode.run file.content with
            | error fault => rfl
            | ok envelope =>
              simp only [Act.outcome_ite]
              split <;> rfl

theorem Fits.ofFile_encode (h : envelope.Fits) : ofFile envelope.encode =
    if envelope.version ≠ currentVersion then .error (.version envelope.version)
    else .ok envelope := by
  rw [ofFile, h.run_decode]

theorem ofFile_eq_ok {content : Bytes} (h : ofFile content = .ok envelope) :
    decode.run content = .ok envelope ∧ envelope.version = currentVersion := by
  unfold ofFile at h
  cases hdecode : decode.run content with
  | error fault => exact absurd h (by simp [hdecode])
  | ok envelope' =>
    rw [hdecode] at h
    dsimp only at h
    split at h
    · exact absurd h (by simp)
    · rename_i hversion
      cases h
      exact ⟨rfl, not_not.1 hversion⟩

/-- Loading leaves the disk alone, and what is loaded is in the file, of the version that is
    read. -/
theorem load_spec {result : Except EnvelopeFault Envelope}
    (h : (load path).outcome world = (result, world')) : world'.disk = world.disk ∧
      ∀ envelope, result = .ok envelope → ∃ file, world.disk.inspect path = .ok (.file file) ∧
        file.content.length ≤ maxFileSize ∧ decode.run file.content = .ok envelope ∧
        envelope.version = currentVersion := by
  rw [outcome_load] at h
  split at h
  · cases h
    exact ⟨rfl, by simp⟩
  · split at h
    · cases h
      exact ⟨rfl, by simp⟩
    · cases h
      exact ⟨rfl, by simp⟩
    · rename_i file hinspect
      split at h
      · cases h
        exact ⟨rfl, by simp⟩
      · rename_i hfits
        split at h
        · cases h
          exact ⟨rfl, by simp⟩
        · cases h
          exact ⟨rfl, fun envelope henvelope =>
            ⟨file, hinspect, Nat.le_of_not_lt hfits, ofFile_eq_ok henvelope⟩⟩

/-- What was saved is loaded, where nothing fails. -/
theorem IsFile.outcome_load (h : envelope.IsFile file) (hcalm : world.faults = .none)
    (hfile : world.disk.inspect path = .ok (.file file))
    (hfits : file.content.length ≤ maxFileSize) :
    (load path).outcome world = (.ok envelope, { world with steps := world.steps + 1 + 1 }) := by
  rw [Envelope.outcome_load, hcalm, hfile]
  simp only [FaultPlan.none, if_neg (Nat.not_lt.2 hfits)]
  rw [h.1, (h.fits hfits).ofFile_encode, if_neg (not_not.2 h.2)]

/-- A file that is too large is refused before it is read. -/
theorem outcome_load_of_large (hcalm : world.faults = .none)
    (hfile : world.disk.inspect path = .ok (.file file))
    (hlarge : maxFileSize < file.content.length) :
    (load path).outcome world =
      (.error (.tooLarge file.content.length), { world with steps := world.steps + 1 }) := by
  rw [outcome_load, hcalm, hfile]
  simp only [FaultPlan.none, if_pos hlarge]

end Load

/-! ## Saving and then loading -/

/-- A saved copy is loaded as it was saved, as long as its file is not disturbed and not too large;
    saving asks for neither. -/
theorem load_of_save {envelope : Envelope} {path : Path} {world world' later : World}
    (hversion : envelope.version = currentVersion)
    (hsave : (envelope.save path).outcome world = (.ok (), world'))
    (hlater : world'.Undisturbed path later) :
    ((load path).outcome later).1 =
      if envelope.Fits then .ok envelope else .error (.tooLarge envelope.fileSize) := by
  obtain ⟨file, hfile, hcontent⟩ := exists_file_of_save hsave
  rw [← hlater.inspect_eq] at hfile
  have hsize : file.content.length = envelope.fileSize := by rw [hcontent, length_encode]
  split
  · rename_i hfits
    rw [IsFile.outcome_load ⟨hcontent, hversion⟩ hlater.calm hfile (hsize ▸ hfits)]
  · rename_i hlarge
    rw [outcome_load_of_large hlater.calm hfile (hsize.symm ▸ Nat.lt_of_not_le hlarge), hsize]

end Envelope

end Custody
