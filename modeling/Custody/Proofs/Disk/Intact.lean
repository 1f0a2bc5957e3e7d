import Custody.Proofs.Disk.Steps
import Custody.Proofs.Envelope.Leftover

set_option autoImplicit false

/-! # Files that nothing happens to

`Disk.Intact` says of a name that no file of that name has been made, changed or taken away, in any
directory. What an operation does on its way to a failure keeps most names intact: saving a sealed
copy leaves nothing but a temporary file (`Envelope.Unfinished.intact`), and making directories makes
no file (`World.intact_makeDirectories`). -/

namespace Custody

namespace Disk

variable {disk disk' disk₁ : Disk} {name other : Bytes} {dir : Path}

/-- Anywhere, what lies under the name lies there still; where nothing did, nothing but a directory
    has come to lie. -/
def Intact (name : Bytes) (disk disk' : Disk) : Prop :=
  ∀ parent, disk'.node? (parent ++ [name]) = disk.node? (parent ++ [name]) ∨
    disk.node? (parent ++ [name]) = none ∧ disk'.node? (parent ++ [name]) = some .directory

namespace Intact

theorem refl (name : Bytes) (disk : Disk) : Intact name disk disk := fun _ => .inl rfl

theorem of_eq (h : disk' = disk) : Intact name disk disk' := h ▸ refl name disk

theorem trans (h : Intact name disk disk₁) (h' : Intact name disk₁ disk') :
    Intact name disk disk' := by
  intro parent
  rcases h parent with heq | ⟨hnone, hmade⟩
  · rw [← heq]
    exact h' parent
  · -- a directory that has been made stays
    rcases h' parent with heq' | ⟨hnone', -⟩
    · exact .inr ⟨hnone, heq'.trans hmade⟩
    · rw [hmade] at hnone'
      exact absurd hnone' (by simp)

/-- The files of the name are the ones that there were. -/
theorem node?_eq_file_iff (h : Intact name disk disk') (parent : Location) (file : File) :
    disk'.node? (parent ++ [name]) = some (.file file) ↔
      disk.node? (parent ++ [name]) = some (.file file) := by
  rcases h parent with heq | ⟨hnone, hmade⟩
  · rw [heq]
  · rw [hnone, hmade]
    simp

end Intact

theorem node?_congr (h : disk'.nodes = disk.nodes) (location : Location) :
    disk'.node? location = disk.node? location := by
  unfold node?
  rw [h]

/-- A file that is written is of one name only. -/
theorem Wrote.intact {file : File} (h : Wrote dir name file disk disk') (hne : other ≠ name) :
    Intact other disk disk' := by
  obtain ⟨parent, -, -, hnodes, -⟩ := h
  intro parent'
  rw [node?_congr hnodes]
  exact .inl (node?_put_of_ne (concat_ne hne parent' parent))

theorem intact_makeDirectory {path : Path} (hmake : disk.makeDirectory path = .ok disk') :
    Intact name disk disk' := by
  obtain ⟨location, hfree, rfl⟩ := exists_of_makeDirectory hmake
  intro parent
  by_cases heq : parent ++ [name] = location
  · rw [heq, node?_put_self (by simp [← heq])]
    exact .inr ⟨hfree, rfl⟩
  · exact .inl (node?_put_of_ne heq)

end Disk

theorem World.intact_makeDirectories (name : Bytes) (path : Path) :
    Relates (Disk.Intact name) (makeDirectories path) :=
  relates_makeDirectories (Disk.Intact.refl name) (fun _ _ _ => Disk.Intact.trans)
    (fun _ _ _ => Disk.intact_makeDirectory) path

/-! ## Failures on the way -/

namespace Envelope

variable {path : Path} {name : Bytes}

/-- A temporary file that is left behind is no file of another name. -/
theorem Unfinished.intact {disk disk' : Disk} (h : Unfinished path disk disk')
    (hname : ∀ last, temporaryName last ≠ name) : Disk.Intact name disk disk' := by
  rcases h with rfl | ⟨dir, last, file, -, -, hwrote⟩
  · exact .refl name disk'
  · exact hwrote.intact (hname last).symm

end Envelope

end Custody
