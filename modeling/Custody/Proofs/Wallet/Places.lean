import Custody.Proofs.Wallet.Harmless

set_option autoImplicit false

/-! # Where the files of wallets lie

A name stands for two files of a wallet directory, the wallet's own and the temporary one beside it.
Whatever the names are, even if they themselves end like a wallet's file, like a temporary file or
like a marker, the files of two wallets and the marker of the directory are different ones, and all
of them lie directly in the directory: `WalletName.places_apart`. -/

namespace Custody

open DirectoryLock (markerName markerPath isFileName_markerName)

/-! ## Children -/

/-- The path leads through the directory to one name more. -/
structure Path.IsChildOf (path dir : Path) : Prop where
  exists_name : ∃ name, IsFileName name ∧ path.components = dir.components ++ [name]
  isAbsolute_eq : path.isAbsolute = dir.isAbsolute

theorem Path.isChildOf_join {name : Bytes} (h : IsFileName name) (dir : Path) :
    (dir.join ⟨name⟩).IsChildOf dir :=
  ⟨⟨name, h, components_join h dir⟩, isAbsolute_join h dir⟩

/-- Different names make different paths, however the directory is written. -/
theorem Path.nodup_components_join {names : List Bytes} (hnames : ∀ name ∈ names, IsFileName name)
    (hnodup : names.Nodup) (dir : Path) :
    ((names.map fun name => dir.join ⟨name⟩).map components).Nodup := by
  have hcomponents : (names.map fun name => dir.join ⟨name⟩).map components =
      names.map fun name => dir.components ++ [name] := by
    rw [List.map_map]
    exact List.map_congr_left fun name hname => components_join (hnames name hname) dir
  rw [hcomponents]
  refine hnodup.map ?_
  intro name other heq
  exact List.singleton_inj.1 (List.append_cancel_left heq)

/-! ## The files of a name -/

namespace WalletName

/-- The names of the wallet's file and of the temporary file beside it. -/
def ownNames (name : WalletName) : List Bytes :=
  [name.fileBytes, Envelope.temporaryName name.fileBytes]

/-- The paths of the two files in a directory. -/
def places (dir : Path) (name : WalletName) : List Path :=
  let path := dir.join (.ofString name.fileName)
  [path, Envelope.temporaryPath path]

variable {name other : WalletName} {last : Bytes}

theorem mem_ownNames_iff : last ∈ name.ownNames ↔ Envelope.IsOwnName name.fileBytes last := by
  simp [ownNames, Envelope.IsOwnName]

theorem places_eq (dir : Path) (name : WalletName) :
    places dir name = name.ownNames.map fun last => dir.join ⟨last⟩ := by
  have hpath : dir.join (.ofString name.fileName) = dir.join ⟨name.fileBytes⟩ := rfl
  unfold places ownNames
  dsimp only
  rw [hpath, Envelope.temporaryPath_join name.isFileName]
  rfl

theorem isFileName_of_mem (h : last ∈ name.ownNames) : Path.IsFileName last := by
  rcases mem_ownNames_iff.1 h with rfl | rfl
  · exact name.isFileName
  · exact Envelope.isFileName_temporaryName name.isFileName.slash_notMem
      name.isFileName.zero_notMem

theorem nodup_ownNames (name : WalletName) : name.ownNames.Nodup := by
  have hne := Envelope.temporaryName_ne name.fileBytes
  simp [ownNames, hne.symm]

/-- No file of one wallet is a file of another one. -/
theorem disjoint_ownNames (h : name ≠ other) : name.ownNames.Disjoint other.ownNames := by
  intro last hmem hmem'
  rcases mem_ownNames_iff.1 hmem with rfl | rfl
  · rcases mem_ownNames_iff.1 hmem' with heq | heq
    · exact fileBytes_ne h heq
    · exact name.temporaryName_ne_fileBytes _ heq.symm
  · rcases mem_ownNames_iff.1 hmem' with heq | heq
    · exact other.temporaryName_ne_fileBytes _ heq
    · exact fileBytes_ne h (List.append_cancel_right heq)

theorem markerName_notMem (name : WalletName) : markerName ∉ name.ownNames := by
  intro hmem
  rcases mem_ownNames_iff.1 hmem with heq | heq
  · exact name.fileBytes_ne_marker heq.symm
  · exact Envelope.temporaryName_ne_marker _ heq.symm

/-- The files of two wallets and the marker are five, and all of them are in the directory. -/
theorem places_apart (dir : Path) (h : name ≠ other) :
    ((places dir name ++ places dir other ++ [markerPath dir]).map Path.components).Nodup ∧
      ∀ path ∈ places dir name ++ places dir other ++ [markerPath dir], path.IsChildOf dir := by
  have hplaces : places dir name ++ places dir other ++ [markerPath dir] =
      (name.ownNames ++ other.ownNames ++ [markerName]).map fun last => dir.join ⟨last⟩ := by
    rw [places_eq, places_eq, List.map_append, List.map_append]
    rfl
  have hnames : ∀ last ∈ name.ownNames ++ other.ownNames ++ [markerName],
      Path.IsFileName last := by
    intro last hmem
    simp only [List.mem_append, List.mem_singleton] at hmem
    rcases hmem with (hmem | hmem) | rfl
    · exact isFileName_of_mem hmem
    · exact isFileName_of_mem hmem
    · exact isFileName_markerName
  have hnodup : (name.ownNames ++ other.ownNames ++ [markerName]).Nodup := by
    refine List.Nodup.append ?_ (List.nodup_singleton _) ?_
    · exact (nodup_ownNames name).append (nodup_ownNames other) (disjoint_ownNames h)
    · rw [List.disjoint_singleton, List.mem_append, not_or]
      exact ⟨name.markerName_notMem, other.markerName_notMem⟩
  rw [hplaces]
  refine ⟨Path.nodup_components_join hnames hnodup dir, ?_⟩
  intro path hpath
  obtain ⟨last, hmem, rfl⟩ := List.mem_map.1 hpath
  exact Path.isChildOf_join (hnames last hmem) dir

end WalletName

end Custody
