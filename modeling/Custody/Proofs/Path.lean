import Mathlib.Data.List.Induction
import Mathlib.Data.List.TakeWhile
import Custody.Path

set_option autoImplicit false

/-! # Paths of files in a directory

How the path of a file in a directory takes the directory's path and the file's name together: the
components of the one, and the other as the last component (`Path.components_join`). Every path that
ends with a name is such a path (`Path.exists_eq_join`). -/

namespace Custody.Path

/-- A name of a file: one component that stands for no directory. -/
structure IsFileName (name : Bytes) : Prop where
  ne_nil : name ≠ []
  slash_notMem : slash ∉ name
  zero_notMem : 0 ∉ name
  ne_here : name ≠ here
  ne_above : name ≠ above

variable {name : Bytes}

/-- A name of more than two bytes stands for no directory. -/
theorem isFileName_of_length (hslash : slash ∉ name) (hzero : 0 ∉ name) (h : 2 < name.length) :
    IsFileName name := by
  refine ⟨?_, hslash, hzero, ?_, ?_⟩
  · rintro rfl
    exact absurd h (by decide)
  · rintro rfl
    exact absurd h (by decide)
  · rintro rfl
    exact absurd h (by decide)

theorem IsFileName.isAbsolute (h : IsFileName name) : isAbsolute ⟨name⟩ = false := by
  cases name with
  | nil => rfl
  | cons b rest =>
    have hb : b ≠ slash := fun heq => h.slash_notMem (heq ▸ List.mem_cons_self)
    simp [Path.isAbsolute, hb]

/-- The bytes of a path in a directory. -/
theorem join_cases (h : IsFileName name) (dir : Path) :
    ((dir.bytes = [] ∨ dir.bytes.getLast? = some slash) ∧
      (dir.join ⟨name⟩).bytes = dir.bytes ++ name) ∨
    (dir.bytes ≠ [] ∧ (dir.join ⟨name⟩).bytes = dir.bytes ++ slash :: name) := by
  unfold join
  rw [h.isAbsolute]
  by_cases hslash : dir.bytes = [] ∨ dir.bytes.getLast? = some slash
  · exact .inl ⟨hslash, by simp [hslash]⟩
  · exact .inr ⟨fun hnil => hslash (.inl hnil), by simp [hslash]⟩

theorem pieces_append_slash (front last : Bytes) (h : slash ∉ last) :
    pieces (front ++ slash :: last) = pieces front ++ [last] := by
  rw [show [last] = pieces last from (List.splitOn_eq_singleton h).symm]
  exact List.splitOn_append_cons_of_beq front last (BEq.refl slash)

/-- A slash at the end adds no component. -/
theorem components_append_slash (front : Bytes) :
    components ⟨front ++ [slash]⟩ = components ⟨front⟩ := by
  unfold components
  rw [pieces_append_slash front [] (by simp), List.filter_append]
  simp

/-- What is written after an empty path or a slash is the last component. -/
theorem components_append {front last : Bytes}
    (hfront : front = [] ∨ front.getLast? = some slash) (hslash : slash ∉ last)
    (hnil : last ≠ []) : components ⟨front ++ last⟩ = components ⟨front⟩ ++ [last] := by
  have hlast : [last].filter (· != []) = [last] := by simp [hnil]
  rcases hfront with rfl | hend
  · unfold components
    rw [List.nil_append, show pieces last = [last] from List.splitOn_eq_singleton hslash, hlast]
    rfl
  · obtain ⟨init, rfl⟩ := List.getLast?_eq_some_iff.1 hend
    rw [components_append_slash, List.append_assoc, List.singleton_append]
    unfold components
    rw [pieces_append_slash init last hslash, List.filter_append, hlast]

/-- The components of a path in a directory are those of the directory, and the name. -/
theorem components_join (h : IsFileName name) (dir : Path) :
    (dir.join ⟨name⟩).components = dir.components ++ [name] := by
  rcases join_cases h dir with ⟨hend, hjoin⟩ | ⟨-, hjoin⟩
  · rw [← components_append hend h.slash_notMem h.ne_nil, ← hjoin]
  · have hslashed := @components_append (dir.bytes ++ [slash]) name (.inr (by simp))
      h.slash_notMem h.ne_nil
    rw [components_append_slash, List.append_assoc, List.singleton_append, ← hjoin] at hslashed
    exact hslashed

theorem isAbsolute_join (h : IsFileName name) (dir : Path) :
    (dir.join ⟨name⟩).isAbsolute = dir.isAbsolute := by
  have hname := h.isAbsolute
  unfold isAbsolute at hname ⊢
  rcases join_cases h dir with ⟨-, hjoin⟩ | ⟨hne, hjoin⟩
  · rw [hjoin]
    cases hdir : dir.bytes with
    | nil => exact hname
    | cons b rest => rfl
  · rw [hjoin]
    cases hdir : dir.bytes with
    | nil => exact absurd hdir hne
    | cons b rest => rfl

/-- A path in a directory has one name at its end. -/
theorem join_inj {name' : Bytes} {dir dir' : Path} (h : IsFileName name) (h' : IsFileName name')
    (hjoin : dir.join ⟨name⟩ = dir'.join ⟨name'⟩) :
    dir.components = dir'.components ∧ name = name' := by
  have hcomponents := congrArg components hjoin
  rw [components_join h, components_join h'] at hcomponents
  obtain ⟨hfront, hlast⟩ := List.append_inj' hcomponents rfl
  exact ⟨hfront, List.singleton_inj.1 hlast⟩

theorem zero_mem_join (h : IsFileName name) (dir : Path) :
    0 ∈ (dir.join ⟨name⟩).bytes ↔ 0 ∈ dir.bytes := by
  have hslash : (0 : UInt8) ≠ slash := by decide
  rcases join_cases h dir with ⟨-, hjoin⟩ | ⟨-, hjoin⟩
  · simp [hjoin, h.zero_notMem]
  · simp [hjoin, h.zero_notMem, hslash]

theorem length_le_length_join (h : IsFileName name) (dir : Path) :
    dir.bytes.length ≤ (dir.join ⟨name⟩).bytes.length := by
  rcases join_cases h dir with ⟨-, hjoin⟩ | ⟨-, hjoin⟩ <;> simp [hjoin]

theorem join_ne_nil (h : IsFileName name) (dir : Path) : (dir.join ⟨name⟩).bytes ≠ [] := by
  rcases join_cases h dir with ⟨-, hjoin⟩ | ⟨-, hjoin⟩ <;> simp [hjoin, h.ne_nil]

/-- No slash follows the name. -/
theorem getLast?_join_ne (h : IsFileName name) (dir : Path) :
    (dir.join ⟨name⟩).bytes.getLast? ≠ some slash := by
  have hlast : ∀ front : Bytes, (front ++ name).getLast? = name.getLast? := by
    intro front
    rw [List.getLast?_append, Option.or_of_isSome (by simp [h.ne_nil])]
  have hjoin : (dir.join ⟨name⟩).bytes.getLast? = name.getLast? := by
    rcases join_cases h dir with ⟨-, hjoin⟩ | ⟨-, hjoin⟩
    · rw [hjoin, hlast]
    · rw [hjoin, ← List.singleton_append, ← List.append_assoc, hlast]
  rw [hjoin]
  exact fun hslash => h.slash_notMem (List.mem_of_getLast? hslash)

/-- What is written after a path is written after the name. -/
theorem withSuffix_join (h : IsFileName name) (dir : Path) (suffix : String) :
    (dir.join ⟨name⟩).withSuffix suffix = dir.join ⟨name ++ Utf8.encode suffix⟩ := by
  have habsolute : isAbsolute ⟨name ++ Utf8.encode suffix⟩ = false := by
    have hname := h.isAbsolute
    cases name with
    | nil => exact absurd rfl h.ne_nil
    | cons b rest => exact hname
  unfold withSuffix join
  rw [h.isAbsolute, habsolute]
  by_cases hslash : dir.bytes = [] ∨ dir.bytes.getLast? = some slash
  · simp [hslash]
  · simp [hslash]

/-! ## Texts without slashes -/

theorem dropTrailing_of_notMem {bytes : Bytes} (h : slash ∉ bytes) : dropTrailing bytes = bytes := by
  fun_cases dropTrailing bytes with
  | case1 rest => exact absurd List.mem_cons_self h
  | case2 rest => exact absurd (List.mem_cons_of_mem _ List.mem_cons_self) h
  | case3 => rfl

/-- What has no slash is its own last component, unless it is nothing or stands for a directory. -/
theorem fileName?_of_notMem {bytes : Bytes} (h : slash ∉ bytes) :
    fileName? ⟨bytes⟩ = if bytes = [] ∨ bytes = here ∨ bytes = above then none else some bytes := by
  have hreverse : slash ∉ bytes.reverse := by rwa [List.mem_reverse]
  have hwhole : bytes.reverse.takeWhile (· != slash) = bytes.reverse := by
    rw [List.takeWhile_eq_self_iff]
    intro b hb
    rw [bne_iff_ne]
    rintro rfl
    exact hreverse hb
  unfold fileName?
  rw [dropTrailing_of_notMem hreverse, hwhole, List.reverse_reverse]

/-! ## Paths taken apart -/

theorem join_of_front {front : Bytes} (h : IsFileName name)
    (hfront : front = [] ∨ front.getLast? = some slash) :
    (⟨front⟩ : Path).join ⟨name⟩ = ⟨front ++ name⟩ := by
  unfold join
  rw [h.isAbsolute]
  simp [hfront]

/-- The path is what follows its last slash, written after the rest. -/
structure Splits (path dir : Path) (last : Bytes) : Prop where
  bytes_eq : path.bytes = dir.bytes ++ last
  slash_notMem : slash ∉ last
  slashed : dir.bytes = [] ∨ dir.bytes.getLast? = some slash

theorem exists_splits (path : Path) : ∃ dir last, path.Splits dir last := by
  obtain ⟨bytes⟩ := path
  induction bytes using List.reverseRecOn with
  | nil => exact ⟨⟨[]⟩, [], rfl, by simp, .inl rfl⟩
  | append_singleton bytes b ih =>
    by_cases hb : b = slash
    · exact ⟨⟨bytes ++ [b]⟩, [], by simp, by simp, .inr (by simp [hb])⟩
    · obtain ⟨dir, last, hbytes, hlast, hslashed⟩ := ih
      exact ⟨dir, last ++ [b], by rw [← List.append_assoc, ← hbytes],
        by simp [hlast, Ne.symm hb], hslashed⟩

section Splits

variable {path dir : Path} {last : Bytes}

theorem Splits.eq_join (h : path.Splits dir last) (hlast : IsFileName last) :
    path = dir.join ⟨last⟩ := by
  obtain ⟨front⟩ := dir
  rw [join_of_front hlast h.slashed, ← h.bytes_eq]

/-- What follows the last slash is a name, or nothing or a component that stands for a
    directory. -/
theorem Splits.cases (h : path.Splits dir last) (hzero : 0 ∉ last) :
    IsFileName last ∨ last = [] ∨ last = here ∨ last = above := by
  by_cases hodd : last = [] ∨ last = here ∨ last = above
  · exact .inr hodd
  · simp only [not_or] at hodd
    exact .inl ⟨hodd.1, h.slash_notMem, hzero, hodd.2.1, hodd.2.2⟩

theorem Splits.withSuffix_eq (h : path.Splits dir last) {suffix : String}
    (hname : IsFileName (last ++ Utf8.encode suffix)) :
    path.withSuffix suffix = dir.join ⟨last ++ Utf8.encode suffix⟩ := by
  obtain ⟨front⟩ := dir
  rw [join_of_front hname h.slashed, withSuffix, h.bytes_eq, List.append_assoc]

/-- The way of a path leads through its front. -/
theorem Splits.components_eq (h : path.Splits dir last) (hlast : last ≠ []) :
    path.components = dir.components ++ [last] := by
  obtain ⟨bytes⟩ := path
  obtain ⟨front⟩ := dir
  cases h.bytes_eq
  exact components_append h.slashed h.slash_notMem hlast

/-- What follows the last slash of the path of a file is the name of the file. -/
theorem Splits.isFileName (h : path.Splits dir last)
    (hfile : ∃ (dir : Path) (name : Bytes), IsFileName name ∧ path = dir.join ⟨name⟩) :
    IsFileName last := by
  obtain ⟨dir', name, hname, hpath⟩ := hfile
  have hlast : last ≠ [] := by
    rintro rfl
    have hbytes := h.bytes_eq
    rw [List.append_nil] at hbytes
    rcases h.slashed with hnil | hslash
    · exact join_ne_nil hname dir' (by rw [← hpath, hbytes, hnil])
    · exact getLast?_join_ne hname dir' (by rw [← hpath, hbytes, hslash])
  have hcomponents := h.components_eq hlast
  rw [hpath, components_join hname] at hcomponents
  obtain ⟨-, heq⟩ := List.append_inj' hcomponents rfl
  exact List.singleton_inj.1 heq ▸ hname

theorem Splits.isAbsolute_eq (h : path.Splits dir last) : path.isAbsolute = dir.isAbsolute := by
  unfold isAbsolute
  rw [h.bytes_eq]
  cases hdir : dir.bytes with
  | cons b rest => rfl
  | nil =>
    cases hlast : last with
    | nil => rfl
    | cons b rest =>
      have hb : b ≠ slash := fun heq => h.slash_notMem (by simp [hlast, heq])
      simp [hb]

end Splits

/-- A path that ends with a name and not with a slash is that of a file in a directory. -/
theorem exists_eq_join {path : Path} (hzero : 0 ∉ path.bytes)
    (hslash : path.bytes.getLast? ≠ some slash) (hname : path.components.getLast? = some name)
    (hhere : name ≠ here) (habove : name ≠ above) :
    IsFileName name ∧ ∃ dir : Path, path = dir.join ⟨name⟩ := by
  obtain ⟨dir, last, hsplits⟩ := path.exists_splits
  have hnil : last ≠ [] := by
    rintro rfl
    have hbytes := hsplits.bytes_eq
    rw [List.append_nil] at hbytes
    rcases hsplits.slashed with hempty | hend
    · exact absurd hname (by simp [components, pieces, hbytes, hempty])
    · exact hslash (hbytes ▸ hend)
  rw [hsplits.components_eq hnil, List.getLast?_concat] at hname
  obtain rfl : last = name := Option.some.inj hname
  have hzeroless : 0 ∉ last := by
    intro hmem
    rw [hsplits.bytes_eq] at hzero
    exact hzero (List.mem_append_right _ hmem)
  have hfile := (hsplits.cases hzeroless).resolve_right (by simp [hnil, hhere, habove])
  exact ⟨hfile, dir, hsplits.eq_join hfile⟩

end Custody.Path
