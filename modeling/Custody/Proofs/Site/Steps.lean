import Custody.Proofs.Act
import Custody.Site

set_option autoImplicit false

/-! # Steps of a site

What managers and lock holders a site has after a step, by their names. -/

namespace Custody.Site

variable {W : Type} {site : Site W} {manager : String}

/-- A manager with the world around it, before any request has been made. -/
def atWork {W : Type} (manager : Manager W) (world : World) : Scene W := ⟨manager, world, []⟩

/-! ## Entries of a name -/

section Entries

variable {α : Type} {name other : String} {a : α} {entries : List (String × α)}

theorem ne_of_mem_without {entry : String × α} (h : entry ∈ without name entries) :
    entry.1 ≠ name := by
  simpa using (List.mem_filter.1 h).2

theorem lookup_without (name : String) (entries : List (String × α)) :
    (without name entries).lookup name = none := by
  rw [List.lookup_eq_none_iff]
  intro entry hentry
  simpa using (ne_of_mem_without hentry).symm

theorem lookup_without_of_ne (h : other ≠ name) :
    (without name entries).lookup other = entries.lookup other := by
  induction entries with
  | nil => rfl
  | cons entry rest ih =>
    obtain ⟨name', a⟩ := entry
    unfold without at ih ⊢
    by_cases hname : name' = name
    · subst hname
      rw [List.filter_cons_of_neg (by simp), ih, List.lookup_cons, beq_false_of_ne h]
    · rw [List.filter_cons_of_pos (by simpa using hname), List.lookup_cons, List.lookup_cons, ih]

theorem notMem_of_lookup (h : entries.lookup name = none) : name ∉ entries.map Prod.fst := by
  intro hmem
  obtain ⟨entry, hentry, rfl⟩ := List.mem_map.1 hmem
  exact absurd (List.lookup_eq_none_iff.1 h entry hentry) (by simp)

/-- Nothing is taken out where there is no entry of the name. -/
theorem without_eq_self (h : name ∉ entries.map Prod.fst) : without name entries = entries := by
  unfold without
  rw [List.filter_eq_self]
  intro entry hentry
  rw [bne_iff_ne]
  rintro rfl
  exact h (List.mem_map_of_mem hentry)

theorem nodup_without (h : (entries.map Prod.fst).Nodup) :
    ((without name entries).map Prod.fst).Nodup :=
  List.Nodup.sublist (List.filter_sublist.map Prod.fst) h

theorem nodup_cons_without (h : (entries.map Prod.fst).Nodup) (a : α) :
    (((name, a) :: without name entries).map Prod.fst).Nodup := by
  rw [List.map_cons, List.nodup_cons]
  refine ⟨?_, nodup_without h⟩
  intro hmem
  obtain ⟨entry, hentry, heq⟩ := List.mem_map.1 hmem
  exact ne_of_mem_without hentry heq

/-- The entry of a name, and all others. -/
theorem perm_of_lookup (h : entries.lookup name = some a) (hnodup : (entries.map Prod.fst).Nodup) :
    entries.Perm ((name, a) :: without name entries) := by
  obtain ⟨before, after, rfl, -⟩ := List.lookup_eq_some_iff.1 h
  rw [List.map_append, List.map_cons, List.nodup_append, List.nodup_cons] at hnodup
  obtain ⟨-, ⟨hafter, -⟩, hdisjoint⟩ := hnodup
  have hbefore : name ∉ before.map Prod.fst :=
    fun hmem => hdisjoint name hmem name List.mem_cons_self rfl
  have hwithout : without name (before ++ (name, a) :: after) =
      without name before ++ without name after := by
    unfold without
    rw [List.filter_append, List.filter_cons_of_neg (by simp)]
  rw [hwithout, without_eq_self hbefore, without_eq_self hafter]
  exact List.perm_middle

end Entries

/-! ## Managers and commands -/

theorem manager?_putManager (site : Site W) (name : String) (m : Manager W) :
    (site.putManager name m).manager? name = some m := by
  simp [putManager, manager?]

/-- Nothing has changed but the order in which managers are kept. -/
structure Same (site site' : Site W) : Prop where
  world_eq : site'.world = site.world
  locks_eq : site'.locks = site.locks
  manager?_eq : ∀ name, site'.manager? name = site.manager? name

theorem same_putManager {m : Manager W} (hm : site.manager? manager = some m) :
    site.Same (site.putManager manager m) := by
  refine ⟨rfl, rfl, ?_⟩
  intro other
  by_cases hname : other = manager
  · rw [hname, manager?_putManager, hm]
  · unfold putManager manager?
    rw [List.lookup_cons, beq_false_of_ne hname]
    exact lookup_without_of_ne hname

theorem manager?_drop (site : Site W) (name : String) : (site.drop name).manager? name = none := by
  unfold drop
  cases hmanager : site.manager? name with
  | none => exact hmanager
  | some m => exact lookup_without name site.managers

/-- Dropping a manager without a lock leaves the world alone. -/
theorem world_drop (h : ∀ m, site.manager? manager = some m → m.dirLock = none) :
    (site.drop manager).world = site.world := by
  unfold drop
  cases hmanager : site.manager? manager with
  | none => rfl
  | some m =>
    simp only [Manager.drop, h m hmanager]
    rfl

section Command

variable [Suite] [SoftBackend W] {m : Manager W}

/-- A command to a manager that is there is carried out. -/
theorem command_eq (h : site.manager? manager = some m) (asked : Command W) :
    site.command manager asked = some
      (((asked.perform.outcome (atWork m site.world)).1,
          (asked.perform.outcome (atWork m site.world)).2.trace),
        { site with
          world := (asked.perform.outcome (atWork m site.world)).2.world }.putManager manager
            (asked.perform.outcome (atWork m site.world)).2.manager) := by
  unfold command
  rw [h]
  rfl

theorem command_eq_none (h : site.manager? manager = none) (asked : Command W) :
    site.command manager asked = none := by
  unfold command
  rw [h]
  rfl

theorem step_command (h : site.manager? manager = some m) (asked : Command W) :
    site.step (.command manager asked) =
      { site with
        world := (asked.perform.outcome (atWork m site.world)).2.world }.putManager manager
          (asked.perform.outcome (atWork m site.world)).2.manager := by
  simp only [step, command_eq h]

theorem step_command_of_none (h : site.manager? manager = none) (asked : Command W) :
    site.step (.command manager asked) = site := by
  simp only [step, command_eq_none h]

end Command

end Custody.Site
