import Mathlib.Data.List.Nodup
import Custody.Manager.Basic
import Custody.Proofs.Act
import Custody.Proofs.Wallet.Name

set_option autoImplicit false

/-! # The registry and the timeout

How the parts that all operations of a manager share act on a scene, and what is left of a registry
by locking: `Scene.lockedAll` for all of its wallets, and `Scene.checked` for the look at the
timeout with which most operations begin. No two wallets of a registry have one name
(`Manager.Distinct`), and then each of them is locked once, in its own place (`Scene.lockedAll_eq`).
-/

namespace Custody

variable {W : Type}

/-! ## Scenes step by step -/

/-- The scene with one more request on record. -/
def Scene.noted (scene : Scene W) (name : WalletName) (request : Request) (succeeded : Bool) :
    Scene W :=
  { scene with trace := scene.trace ++ [⟨name, request, succeeded⟩] }

namespace Manager

@[simp] theorem outcome_update (f : Manager W → Manager W) (scene : Scene W) :
    (update f).outcome scene = (.ok (), { scene with manager := f scene.manager }) := rfl

@[simp] theorem outcome_onWorld {α : Type} (act : Act Error World α) (scene : Scene W) :
    (onWorld act).outcome scene =
      ((act.outcome scene.world).1, { scene with world := (act.outcome scene.world).2 }) := rfl

@[simp] theorem outcome_now (scene : Scene W) :
    now.outcome scene = (.ok (scene.world.time scene.manager.clock), scene) := rfl

@[simp] theorem outcome_note (name : WalletName) (request : Request) (succeeded : Bool)
    (scene : Scene W) :
    (note name request succeeded).outcome scene = (.ok (), scene.noted name request succeeded) :=
  rfl

theorem outcome_wallet (name : String) (scene : Scene W) :
    (wallet name).outcome scene = match scene.manager.find? name with
      | some entry => (.ok entry, scene)
      | none => (.error (.walletNonexistent name), scene) := by
  unfold wallet
  simp only [Act.outcome_bind, Act.outcome_get]
  cases scene.manager.find? name <;> rfl

@[simp] theorem outcome_ask {α : Type} (entry : WalletName × W) (request : Request)
    (answer : Except Error α) (scene : Scene W) :
    (ask entry request answer).outcome scene =
      (answer, scene.noted entry.1 request answer.isOk) := by
  cases answer <;> rfl

@[simp] theorem outcome_request {α : Type} (entry : WalletName × W) (request : Request)
    (act : Act Error (W × World) α) (scene : Scene W) :
    (Manager.request entry request act).outcome scene =
      ((act.outcome (entry.2, scene.world)).1,
        Scene.noted
          { scene with
            manager := scene.manager.replace entry.1 (act.outcome (entry.2, scene.world)).2.1
            world := (act.outcome (entry.2, scene.world)).2.2 }
          entry.1 request (act.outcome (entry.2, scene.world)).1.isOk) := by
  unfold Manager.request
  simp only [Act.outcome_bind, Act.outcome_get, Act.outcome_set, outcome_ask]

@[simp] theorem outcome_askLocked [Backend W] (entry : WalletName × W) (scene : Scene W) :
    (askLocked entry).outcome scene = (.ok (Backend.isLocked entry.2),
      scene.noted entry.1 (.isLocked (Backend.isLocked entry.2)) true) := rfl

end Manager

/-! ## Names in the registry -/

namespace Manager

/-- No two wallets have one name. -/
def Distinct (manager : Manager W) : Prop := (manager.wallets.map Prod.fst).Nodup

variable {manager : Manager W} {name name' : WalletName} {wallet wallet' : W}

/-- The names of the wallets in registration order. -/
def names (manager : Manager W) : List WalletName := manager.wallets.map Prod.fst

theorem isRegistered_eq_any (text : String) :
    manager.isRegistered text = manager.names.any fun name => name.text == text := by
  unfold names isRegistered
  rw [List.any_map]
  rfl

theorem isRegistered_eq_false_iff :
    manager.isRegistered name.text = false ↔ name ∉ manager.names := by
  rw [isRegistered_eq_any, List.any_eq_false]
  constructor
  · intro h hmem
    exact h name hmem (by simp)
  · intro h other hother htext
    rw [beq_iff_eq] at htext
    exact h (WalletName.eq_of_text_eq htext ▸ hother)

theorem mem_of_find?_eq_some {text : String} {entry : WalletName × W}
    (h : manager.find? text = some entry) : entry ∈ manager.wallets ∧ entry.1.text = text := by
  refine ⟨List.mem_of_find?_eq_some h, ?_⟩
  have := List.find?_some h
  simpa using this

theorem isRegistered_of_mem (h : (name, wallet) ∈ manager.wallets) :
    manager.isRegistered name.text = true := by
  unfold isRegistered
  rw [List.any_eq_true]
  exact ⟨(name, wallet), h, by simp⟩

theorem Distinct.eq_of_mem (h : manager.Distinct) (hmem : (name, wallet) ∈ manager.wallets)
    (hmem' : (name, wallet') ∈ manager.wallets) : wallet = wallet' := by
  have := List.inj_on_of_nodup_map h hmem hmem' rfl
  exact congrArg Prod.snd this

theorem Distinct.find?_eq_some (h : manager.Distinct) (hmem : (name, wallet) ∈ manager.wallets) :
    manager.find? name.text = some (name, wallet) := by
  cases hfind : manager.find? name.text with
  | none =>
    have := List.find?_eq_none.1 hfind _ hmem
    exact absurd this (by simp)
  | some entry =>
    obtain ⟨hentry, htext⟩ := mem_of_find?_eq_some hfind
    obtain ⟨name', wallet'⟩ := entry
    cases WalletName.eq_of_text_eq htext
    rw [h.eq_of_mem hmem hentry]

/-! ## Putting wallets in the registry -/

theorem mem_replace (h : (name, wallet) ∈ manager.wallets) (other : WalletName) (x : W) :
    (other, x) ∈ (manager.replace name wallet').wallets ↔
      (other = name ∧ x = wallet') ∨ (other ≠ name ∧ (other, x) ∈ manager.wallets) := by
  unfold replace
  rw [List.mem_map]
  constructor
  · rintro ⟨⟨name', y⟩, hmem, heq⟩
    by_cases hname : name' = name
    · rw [if_pos hname] at heq
      cases heq
      exact .inl ⟨rfl, rfl⟩
    · rw [if_neg hname] at heq
      cases heq
      exact .inr ⟨hname, hmem⟩
  · rintro (⟨rfl, rfl⟩ | ⟨hname, hmem⟩)
    · exact ⟨(other, wallet), h, if_pos rfl⟩
    · exact ⟨(other, x), hmem, if_neg hname⟩

theorem names_replace : (manager.replace name wallet).names = manager.names := by
  unfold names replace
  rw [List.map_map]
  apply List.map_congr_left
  intro entry _
  by_cases hname : entry.1 = name <;> simp [hname]

theorem Distinct.replace (h : manager.Distinct) : (manager.replace name wallet).Distinct := by
  show (manager.replace name wallet).names.Nodup
  rw [names_replace]
  exact h

/-- The registry with a wallet as its last one, in place of any other of its name. -/
def registered (manager : Manager W) (name : WalletName) (wallet : W) : Manager W :=
  { manager with wallets := manager.wallets.filter (·.1 ≠ name) ++ [(name, wallet)] }

@[simp] theorem outcome_register (scene : Scene W) : (register name wallet).outcome scene =
    (.ok (), { scene with manager := scene.manager.registered name wallet }) := rfl

theorem names_registered :
    (manager.registered name wallet).names = manager.names.filter (· ≠ name) ++ [name] := by
  unfold names registered
  rw [List.map_append, List.filter_map]
  rfl

theorem mem_registered (other : WalletName) (x : W) :
    (other, x) ∈ (manager.registered name wallet).wallets ↔
      (other = name ∧ x = wallet) ∨ (other ≠ name ∧ (other, x) ∈ manager.wallets) := by
  unfold registered
  simp only [List.mem_append, List.mem_filter, List.mem_singleton, Prod.mk.injEq,
    decide_eq_true_eq]
  rw [or_comm, and_comm (a := _ ≠ name)]

theorem Distinct.registered (h : manager.Distinct) :
    (manager.registered name wallet).Distinct := by
  unfold Distinct Manager.registered
  rw [List.map_append, List.nodup_append]
  refine ⟨?_, by simp, ?_⟩
  · exact List.Nodup.sublist (List.filter_sublist.map Prod.fst) h
  · intro a ha b hb
    rw [List.mem_map] at ha
    obtain ⟨entry, hentry, rfl⟩ := ha
    rw [List.map_singleton, List.mem_singleton] at hb
    subst hb
    exact of_decide_eq_true (List.mem_filter.1 hentry).2

/-- In a registry with distinct names, exactly one place is replaced. -/
theorem map_replace_append {before after : List (WalletName × W)}
    (h : ((before ++ (name, wallet) :: after).map Prod.fst).Nodup) :
    (before ++ (name, wallet) :: after).map
        (fun entry => if entry.1 = name then (name, wallet') else entry) =
      before ++ (name, wallet') :: after := by
  rw [List.map_append, List.map_cons, List.nodup_append, List.nodup_cons] at h
  obtain ⟨-, ⟨hafter, -⟩, hbefore⟩ := h
  rw [List.map_append, List.map_cons, if_pos rfl]
  congr 1
  · rw [List.map_congr_left (g := id), List.map_id]
    intro entry hentry
    exact if_neg (hbefore entry.1 (List.mem_map_of_mem hentry) name List.mem_cons_self)
  · congr 1
    rw [List.map_congr_left (g := id), List.map_id]
    intro entry hentry
    refine if_neg ?_
    rintro rfl
    exact hafter (List.mem_map.2 ⟨entry, hentry, rfl⟩)

/-! ## Locking -/

variable [Backend W]

/-- A wallet, locked unless it was locked before. -/
def locked (wallet : W) : W := if Backend.isLocked wallet then wallet else Backend.lock wallet

/-- The requests that locking a wallet takes. -/
def lockEvents (entry : WalletName × W) : List Event :=
  ⟨entry.1, .isLocked (Backend.isLocked entry.2), true⟩ ::
    if Backend.isLocked entry.2 then [] else [⟨entry.1, .lock, true⟩]

end Manager

namespace Scene

variable [Backend W]

/-- The scene after one wallet has been locked. -/
def afterLocking (scene : Scene W) (entry : WalletName × W) : Scene W :=
  { scene with
    manager :=
      if Backend.isLocked entry.2 then scene.manager
      else scene.manager.replace entry.1 (Backend.lock entry.2)
    trace := scene.trace ++ Manager.lockEvents entry }

/-- The scene after all wallets have been locked. -/
def lockedAll (scene : Scene W) : Scene W := scene.manager.wallets.foldl afterLocking scene

end Scene

namespace Manager

variable [Backend W]

@[simp] theorem outcome_lockEntry (entry : WalletName × W) (scene : Scene W) :
    (lockEntry entry).outcome scene = (.ok (), scene.afterLocking entry) := by
  unfold lockEntry
  simp only [Act.outcome_bind, outcome_askLocked, Act.outcome_ite, Act.outcome_pure]
  unfold Scene.afterLocking lockEvents
  split
  · rename_i hlocked
    simp [Scene.noted, hlocked]
  · rename_i hopen
    simp [Scene.noted, hopen]

theorem outcome_forM_lockEntry (entries : List (WalletName × W)) (scene : Scene W) :
    (entries.forM lockEntry).outcome scene = (.ok (), entries.foldl Scene.afterLocking scene) := by
  induction entries generalizing scene with
  | nil => rfl
  | cons entry entries ih =>
    show (lockEntry entry >>= fun _ => entries.forM lockEntry).outcome scene = _
    rw [Act.outcome_bind, outcome_lockEntry]
    exact ih (scene.afterLocking entry)

@[simp] theorem outcome_lockAll (scene : Scene W) :
    lockAll.outcome scene = (.ok (), scene.lockedAll) := by
  unfold lockAll
  rw [Act.outcome_bind, Act.outcome_get]
  exact outcome_forM_lockEntry scene.manager.wallets scene

end Manager

namespace Scene

variable [Backend W] {scene : Scene W}

/-- Locking goes through the registry from the front: what is behind waits as it was. -/
theorem foldl_afterLocking {before after : List (WalletName × W)}
    (hwallets : scene.manager.wallets = before ++ after) (h : scene.manager.Distinct) :
    after.foldl afterLocking scene =
      { scene with
        manager := { scene.manager with
          wallets := before ++ after.map fun entry => (entry.1, Manager.locked entry.2) }
        trace := scene.trace ++ after.flatMap Manager.lockEvents } := by
  induction after generalizing scene before with
  | nil =>
    simp [← hwallets]
  | cons entry after ih =>
    obtain ⟨name, wallet⟩ := entry
    have hstep : (scene.afterLocking (name, wallet)).manager =
        { scene.manager with wallets := before ++ (name, Manager.locked wallet) :: after } := by
      unfold afterLocking Manager.locked
      by_cases hlocked : Backend.isLocked wallet = true
      · simp [hlocked, ← hwallets]
      · -- no other entry has the name, so none but this one is replaced
        unfold Manager.Distinct at h
        rw [hwallets] at h
        simp only [hlocked, if_neg, Bool.false_eq_true, not_false_eq_true]
        unfold Manager.replace
        rw [hwallets, Manager.map_replace_append h]
    have hwallets' : (scene.afterLocking (name, wallet)).manager.wallets =
        (before ++ [(name, Manager.locked wallet)]) ++ after := by
      rw [hstep]
      simp
    have hdistinct : (scene.afterLocking (name, wallet)).manager.Distinct := by
      unfold Manager.Distinct at h ⊢
      rw [hstep]
      rw [hwallets] at h
      simpa using h
    rw [List.foldl_cons, ih hwallets' hdistinct, hstep]
    simp [afterLocking]

/-- Locking all wallets locks each of them once, and leaves the world alone. -/
theorem lockedAll_eq (h : scene.manager.Distinct) :
    scene.lockedAll =
      { scene with
        manager := { scene.manager with
          wallets := scene.manager.wallets.map fun entry => (entry.1, Manager.locked entry.2) }
        trace := scene.trace ++ scene.manager.wallets.flatMap Manager.lockEvents } := by
  have hwallets : scene.manager.wallets = [] ++ scene.manager.wallets := rfl
  exact foldl_afterLocking hwallets h

/-! ## The look at the timeout -/

/-- The scene after the look at the timeout: the window is opened anew, and all wallets are locked
    if it had run out. -/
def checked (scene : Scene W) : Scene W :=
  let look := scene.manager.timeout.check (scene.world.time scene.manager.clock)
  let scene := { scene with manager := { scene.manager with timeout := look.2 } }
  if look.1 then scene.lockedAll else scene

/-- The look at the timeout leaves the world alone, and the wallets too unless the window has run
    out. -/
theorem checked_eq (h : scene.manager.Distinct) : scene.checked.world = scene.world ∧
    scene.checked.manager.wallets =
      if (scene.manager.timeout.check (scene.world.time scene.manager.clock)).1 then
        scene.manager.wallets.map fun entry => (entry.1, Manager.locked entry.2)
      else scene.manager.wallets := by
  unfold checked
  generalize scene.manager.timeout.check (scene.world.time scene.manager.clock) = look
  have hdistinct : ({ scene with manager := { scene.manager with timeout := look.2 } } :
      Scene W).manager.Distinct := h
  dsimp only
  split
  · rw [lockedAll_eq hdistinct]
    exact ⟨rfl, rfl⟩
  · exact ⟨rfl, rfl⟩

end Scene

@[simp] theorem Manager.outcome_checkTimeout [Backend W] (scene : Scene W) :
    Manager.checkTimeout.outcome scene = (.ok (), scene.checked) := by
  unfold Manager.checkTimeout Scene.checked
  simp only [Act.outcome_bind, Act.outcome_get, outcome_now, outcome_update, Act.outcome_ite,
    outcome_lockAll, Act.outcome_pure]
  split <;> rfl

theorem Manager.outcome_checkTimeout_bind [Backend W] {α : Type} (f : Unit → Operation W α)
    (scene : Scene W) :
    (Manager.checkTimeout >>= f).outcome scene = (f ()).outcome scene.checked :=
  Act.outcome_bind_of_ok (outcome_checkTimeout scene)

end Custody
