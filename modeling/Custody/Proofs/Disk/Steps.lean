import Custody.Proofs.Act
import Custody.Proofs.Disk.Files

set_option autoImplicit false

/-! # Steps on the disk

What is left of the disk by one step of an operation, planned failures included, and by making the
directories on the way to a path (`World.relates_makeDirectories`): nothing that was there goes away
(`World.sparing_makeDirectories`). -/

namespace Custody

namespace World

variable {α : Type} {world world' : World} {step : IoStep}

theorem disk_of_attempt_ok {operation : Disk → Except IoError (α × Disk)} {a : α}
    (h : (attempt step operation).outcome world = (.ok a, world')) :
    operation world.disk = .ok (a, world'.disk) := by
  rw [outcome_attempt] at h
  split at h
  · exact absurd (congrArg Prod.fst h) (by simp)
  · split at h
    · cases h
      assumption
    · exact absurd (congrArg Prod.fst h) (by simp)

theorem disk_of_attempt_error {operation : Disk → Except IoError (α × Disk)} {error : IoError}
    (h : (attempt step operation).outcome world = (.error error, world')) :
    world'.disk = world.disk := by
  rw [outcome_attempt] at h
  split at h
  · cases h
    rfl
  · split at h
    · exact absurd (congrArg Prod.fst h) (by simp)
    · cases h
      rfl

theorem disk_of_change_ok {operation : Disk → Except IoError Disk}
    (h : (change step operation).outcome world = (.ok (), world')) :
    operation world.disk = .ok world'.disk := by
  have hdisk := disk_of_attempt_ok h
  cases hdone : operation world.disk with
  | error error =>
    rw [hdone] at hdisk
    exact absurd hdisk (by simp [Except.map])
  | ok disk =>
    rw [hdone] at hdisk
    cases hdisk
    rfl

/-- Writing a file writes some bytes or leaves the disk as it was; on success it writes all of the
    content. -/
theorem write_of_writeFile {path : Path} {content : Bytes} {result : Except IoError Unit}
    (h : (writeFile path content).outcome world = (result, world')) :
    (world'.disk = world.disk ∧ result ≠ .ok ()) ∨ ∃ bytes,
      (result = .ok () → bytes = content) ∧ world.disk.write path bytes = .ok world'.disk := by
  unfold writeFile at h
  rw [Act.outcome_mk] at h
  cases hfault : world.faults world.steps .write with
  | some fault =>
    simp only [hfault] at h
    cases hwrite : world.disk.write path (content.take fault.written) with
    | error error =>
      rw [hwrite] at h
      cases h
      exact .inl ⟨rfl, by simp⟩
    | ok disk =>
      rw [hwrite] at h
      cases h
      exact .inr ⟨_, by simp, hwrite⟩
  | none =>
    simp only [hfault] at h
    cases hwrite : world.disk.write path content with
    | error error =>
      rw [hwrite] at h
      cases h
      exact .inl ⟨rfl, by simp⟩
    | ok disk =>
      rw [hwrite] at h
      cases h
      exact .inr ⟨_, fun _ => rfl, hwrite⟩

/-- Writing a file in a directory writes it or leaves the disk as it was; on success all of the
    content is there. -/
theorem writeFile_join {dir : Path} {name : Bytes} (hname : Path.IsFileName name) {content : Bytes}
    {result : Except IoError Unit}
    (h : (writeFile (dir.join ⟨name⟩) content).outcome world = (result, world')) :
    (world'.disk = world.disk ∧ result ≠ .ok ()) ∨ ∃ file : File,
      (result = .ok () → file.content = content) ∧
      Disk.Wrote dir name file world.disk world'.disk := by
  rcases write_of_writeFile h with hsame | ⟨bytes, hbytes, hwrite⟩
  · exact .inl hsame
  · obtain ⟨file, rfl, hwrote⟩ := Disk.write_join hname hwrite
    exact .inr ⟨file, hbytes, hwrote⟩

/-! ## Directories -/

/-- Whatever comes of the operation, the disks before and after it are related. -/
def Relates {ε : Type} (R : Disk → Disk → Prop) (act : Act ε World α) : Prop :=
  ∀ world, R world.disk (act.outcome world).2.disk

/-- Whatever comes of the operation, what can be seen at the path is still there. -/
abbrev Sparing {ε : Type} (seen : Path) (act : Act ε World α) : Prop :=
  Relates (Disk.Spares seen) act

section Relates

variable {ε β : Type} {R : Disk → Disk → Prop}

theorem Relates.of_disk_eq (hrefl : ∀ disk, R disk disk) {act : Act ε World α}
    (h : ∀ world, (act.outcome world).2.disk = world.disk) : Relates R act := by
  intro world
  rw [h world]
  exact hrefl world.disk

theorem Relates.bind
    (htrans : ∀ ⦃disk disk₁ disk'⦄, R disk disk₁ → R disk₁ disk' → R disk disk')
    {x : Act ε World α} {f : α → Act ε World β} (hx : Relates R x) (hf : ∀ a, Relates R (f a)) :
    Relates R (x >>= f) := by
  intro world
  exact Act.holds_after_bind (P := fun world₁ => R world.disk world₁.disk) (hx world)
    (fun _ => id) fun a world₁ hfirst => htrans hfirst (hf a world₁)

variable (hrefl : ∀ disk, R disk disk)
  (htrans : ∀ ⦃disk disk₁ disk'⦄, R disk disk₁ → R disk₁ disk' → R disk disk')
  (hmake : ∀ ⦃path disk disk'⦄, disk.makeDirectory path = .ok disk' → R disk disk')

include hrefl hmake in
theorem relates_makeDirectory (path : Path) :
    Relates R (change .makeDirectory (·.makeDirectory path)) := by
  intro world
  rcases hdone : (change .makeDirectory (·.makeDirectory path)).outcome world
    with ⟨error | _, world'⟩
  · rw [disk_of_attempt_error hdone]
    exact hrefl world.disk
  · exact hmake (disk_of_change_ok hdone)

include hrefl htrans hmake in
theorem relates_makeDirectories_go (path : Path) (depth : Nat) :
    Relates R (makeDirectories.go path depth) := by
  induction depth generalizing path with
  | zero => exact .of_disk_eq hrefl fun _ => rfl
  | succ depth ih =>
    have htry : Relates R ((change .makeDirectory (·.makeDirectory path)).settled :
        Act IoError World (Except IoError Unit)) := relates_makeDirectory hrefl hmake path
    -- what is left to do after a failure: to see whether a directory is there
    have hlook : ∀ error, Relates R (do
        if (← get).disk.isDirectory path then return else throw error :
        Act IoError World Unit) := by
      intro error
      refine .of_disk_eq hrefl fun world => ?_
      simp only [Act.outcome_bind, Act.outcome_get]
      split <;> rfl
    unfold makeDirectories.go
    split
    · exact .of_disk_eq hrefl fun _ => rfl
    · refine Relates.bind htrans htry ?_
      intro first
      split
      · exact .of_disk_eq hrefl fun _ => rfl
      · have hretry : ∀ rest : Except IoError Unit → Act IoError World Unit,
            Relates R (rest (.ok ())) → (∀ error, Relates R (rest (.error error))) →
            Relates R ((change .makeDirectory (·.makeDirectory path)).settled >>= rest) := by
          intro rest hok herror
          refine Relates.bind htrans htry ?_
          rintro (error | _)
          · exact herror error
          · exact hok
        have hdone : Relates R (pure () : Act IoError World Unit) := .of_disk_eq hrefl fun _ => rfl
        split
        · exact Relates.bind htrans (.of_disk_eq hrefl fun _ => rfl) fun _ => hretry _ hdone hlook
        · exact Relates.bind htrans (ih _) fun _ => hretry _ hdone hlook
      · exact hlook _

include hrefl htrans hmake in
/-- Whatever making a directory does to the disk, making those on the way to a path does, however
    far it gets. -/
theorem relates_makeDirectories (path : Path) : Relates R (makeDirectories path) :=
  relates_makeDirectories_go hrefl htrans hmake path _

end Relates

section Directories

variable {dir : Path} {name : Bytes}

/-- Making directories on the way to a path leaves every file alone, however far it gets. -/
theorem sparing_makeDirectories (h : Path.IsFileName name) (path : Path) :
    Sparing (dir.join ⟨name⟩) (makeDirectories path) :=
  relates_makeDirectories (Disk.Spares.refl _) (fun _ _ _ => Disk.Spares.trans)
    (fun _ _ _ => Disk.spares_makeDirectory h) path

/-- Nothing is to be made where a file can be seen in the directory. -/
theorem outcome_makeDirectories (h : Path.IsFileName name) {node : Node}
    (hcalm : world.faults = .none) (hnode : world.disk.inspect (dir.join ⟨name⟩) = .ok node) :
    ∃ steps, (makeDirectories dir).outcome world = (.ok (), { world with steps }) := by
  unfold makeDirectories makeDirectories.go
  split
  · exact ⟨world.steps, rfl⟩
  · rename_i hdir
    obtain ⟨hmake, hthere⟩ := Disk.exists_of_inspect h hdir hnode
    have htry : (change .makeDirectory (·.makeDirectory dir)).outcome world =
        (.error .alreadyExists, { world with steps := world.steps + 1 }) := by
      unfold change
      rw [outcome_attempt, hcalm]
      simp only [FaultPlan.none, hmake]
      rfl
    refine ⟨world.steps + 1, ?_⟩
    rw [Act.outcome_bind, Act.outcome_settled, htry]
    simp only [Act.outcome_bind, Act.outcome_get, hthere, if_true]
    rfl

end Directories

end World

end Custody
