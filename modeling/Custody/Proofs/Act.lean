import Mathlib.Tactic.Core
import Custody.World

set_option autoImplicit false

/-! # Operations step by step

How `Act.outcome` passes through the ways in which operations are put together. With these laws an
operation is carried out symbolically: `Act.outcome_bind` runs the first part and hands its answer
and its state to the second, or stops there with the error. -/

namespace Custody

namespace Act

variable {ε ε' σ τ α β : Type}

theorem outcome_mk (run : StateM σ (Except ε α)) (s : σ) :
    Act.outcome (ExceptT.mk run) s = run s := rfl

@[simp] theorem outcome_pure (a : α) (s : σ) : (pure a : Act ε σ α).outcome s = (.ok a, s) := rfl

@[simp] theorem outcome_throw (e : ε) (s : σ) :
    (throw e : Act ε σ α).outcome s = (.error e, s) := rfl

@[simp] theorem outcome_get (s : σ) : (get : Act ε σ σ).outcome s = (.ok s, s) := rfl

@[simp] theorem outcome_set (s s' : σ) : (set s' : Act ε σ PUnit).outcome s = (.ok ⟨⟩, s') := rfl

@[simp] theorem outcome_modify (f : σ → σ) (s : σ) :
    (modify f : Act ε σ PUnit).outcome s = (.ok ⟨⟩, f s) := rfl

theorem outcome_bind (x : Act ε σ α) (f : α → Act ε σ β) (s : σ) :
    (x >>= f).outcome s = match x.outcome s with
      | (.ok a, s') => (f a).outcome s'
      | (.error e, s') => (.error e, s') := by
  show (ExceptT.bindCont f (x.run.run s).1).run (x.run.run s).2 = _
  unfold outcome
  rcases x.run.run s with ⟨a | e, s'⟩ <;> rfl

/-- The first part answers, and the second goes on from there. -/
theorem outcome_bind_of_ok {x : Act ε σ α} {f : α → Act ε σ β} {s s' : σ} {a : α}
    (h : x.outcome s = (.ok a, s')) : (x >>= f).outcome s = (f a).outcome s' := by
  rw [outcome_bind, h]

/-- Two parts answer only if the first does and the second then does. -/
theorem exists_of_outcome_bind_eq_ok {x : Act ε σ α} {f : α → Act ε σ β} {s s' : σ} {b : β}
    (h : (x >>= f).outcome s = (.ok b, s')) :
    ∃ a s₁, x.outcome s = (.ok a, s₁) ∧ (f a).outcome s₁ = (.ok b, s') := by
  rw [outcome_bind] at h
  rcases hx : x.outcome s with ⟨e | a, s₁⟩
  · rw [hx] at h
    exact absurd (congrArg Prod.fst h) (by simp)
  · rw [hx] at h
    exact ⟨a, s₁, rfl, h⟩

/-- The first part leaves a state with `P`, and that becomes a state with `Q`: at once, where the
    first part has failed, and by the second part otherwise. -/
theorem holds_after_bind {P Q : σ → Prop} {x : Act ε σ α} {f : α → Act ε σ β} {s : σ}
    (hx : P (x.outcome s).2) (hfailed : ∀ s', P s' → Q s')
    (hf : ∀ a s', P s' → Q ((f a).outcome s').2) : Q ((x >>= f).outcome s).2 := by
  rw [outcome_bind]
  generalize x.outcome s = done at hx
  rcases done with ⟨e | a, s'⟩
  · exact hfailed s' hx
  · exact hf a s' hx

/-- Where the second part answers the same whatever the state, only the answers matter. -/
theorem outcome_bind_fst {f : α → Act ε σ β} {answer : α → Except ε β}
    (hf : ∀ a s, ((f a).outcome s).1 = answer a) (x : Act ε σ α) (s : σ) :
    ((x >>= f).outcome s).1 = (x.outcome s).1 >>= answer := by
  rw [outcome_bind]
  rcases x.outcome s with ⟨error | a, s'⟩
  · rfl
  · exact hf a s'

theorem outcome_map (f : α → β) (x : Act ε σ α) (s : σ) :
    (f <$> x).outcome s = ((x.outcome s).1.map f, (x.outcome s).2) := by
  rw [← bind_pure_comp, outcome_bind]
  rcases x.outcome s with ⟨e | a, s'⟩ <;> rfl

/-- A result whose answer is reworded comes from the operation itself, which leaves the same state
    behind. -/
theorem exists_of_outcome_map {f : α → β} {x : Act ε σ α} {s s' : σ} {result : Except ε β}
    (h : (f <$> x).outcome s = (result, s')) :
    ∃ answer, x.outcome s = (answer, s') ∧ answer.map f = result := by
  rw [outcome_map] at h
  obtain ⟨hresult, hstate⟩ := Prod.mk.inj h
  exact ⟨(x.outcome s).1, Prod.ext rfl hstate, hresult⟩

theorem state_of_outcome_map {f : α → β} {x : Act ε σ α} {s s' : σ} {result : Except ε β}
    (h : (f <$> x).outcome s = (result, s')) : (x.outcome s).2 = s' := by
  obtain ⟨answer, hx, -⟩ := exists_of_outcome_map h
  rw [hx]

@[simp] theorem outcome_zoom (part : τ → σ) (restore : σ → τ → τ) (act : Act ε σ α) (s : τ) :
    (act.zoom part restore).outcome s =
      ((act.outcome (part s)).1, restore (act.outcome (part s)).2 s) := rfl

@[simp] theorem outcome_mapError (reword : ε → ε') (act : Act ε σ α) (s : σ) :
    (act.mapError reword).outcome s =
      ((act.outcome s).1.mapError reword, (act.outcome s).2) := rfl

@[simp] theorem outcome_settled (act : Act ε σ α) (s : σ) :
    (act.settled : Act ε' σ _).outcome s = (.ok (act.outcome s).1, (act.outcome s).2) := rfl

@[simp] theorem outcome_ofExcept (result : Except ε α) (s : σ) :
    (ofExcept result : Act ε σ α).outcome s = (result, s) := rfl

@[simp] theorem outcome_liftM (result : Except ε α) (s : σ) :
    (liftM result : Act ε σ α).outcome s = (result, s) := by
  cases result <;> rfl

/-- What is an answer after rewording the errors was that answer before. -/
theorem eq_ok_of_mapError {reword : ε → ε'} {result : Except ε α} {a : α}
    (h : result.mapError reword = .ok a) : result = .ok a := by
  cases result with
  | error error => exact absurd h (by simp [Except.mapError])
  | ok b => simpa [Except.mapError] using h

/-- What is an answer after a map comes from an answer. -/
theorem exists_of_map_eq_ok {f : α → β} {result : Except ε α} {b : β}
    (h : result.map f = .ok b) : ∃ a, result = .ok a ∧ f a = b := by
  cases result with
  | error error => exact absurd h (by simp [Except.map])
  | ok a => exact ⟨a, rfl, by simpa [Except.map] using h⟩

/-- What is an error after a map was that error before. -/
theorem eq_error_of_map {f : α → β} {result : Except ε α} {e : ε}
    (h : result.map f = .error e) : result = .error e := by
  cases result with
  | error error => simpa [Except.map] using h
  | ok a => exact absurd h (by simp [Except.map])

@[simp] theorem isOk_ok (a : α) : (Except.ok a : Except ε α).isOk = true := rfl

@[simp] theorem isOk_error (e : ε) : (Except.error e : Except ε α).isOk = false := rfl

@[simp] theorem isOk_map (f : α → β) (result : Except ε α) :
    (result.map f).isOk = result.isOk := by
  cases result <;> rfl

theorem exists_of_isOk {result : Except ε α} (h : result.isOk = true) : ∃ a, result = .ok a := by
  cases result with
  | error error => exact absurd h (by simp)
  | ok a => exact ⟨a, rfl⟩

theorem exists_of_isOk_eq_false {result : Except ε α} (h : result.isOk = false) :
    ∃ e, result = .error e := by
  cases result with
  | error error => exact ⟨error, rfl⟩
  | ok a => exact absurd h (by simp)

theorem outcome_ite {c : Prop} [Decidable c] (x y : Act ε σ α) (s : σ) :
    (if c then x else y).outcome s = if c then x.outcome s else y.outcome s :=
  apply_ite (fun act => Act.outcome act s) c x y

end Act

namespace World

/-- Drawing changes the random source and nothing else. -/
@[simp] theorem outcome_drawing {ε α : Type} (draw : StateM Entropy α) (world : World) :
    (drawing draw : Act ε World α).outcome world =
      (.ok (draw.run world.entropy).1, { world with entropy := (draw.run world.entropy).2 }) := rfl

theorem outcome_attempt {α : Type} (step : IoStep)
    (operation : Disk → Except IoError (α × Disk)) (world : World) :
    (attempt step operation).outcome world =
      match world.faults world.steps step with
      | some fault => (.error fault.error, { world with steps := world.steps + 1 })
      | none =>
        match operation world.disk with
        | .ok (answer, disk) => (.ok answer, { world with disk, steps := world.steps + 1 })
        | .error error => (.error error, { world with steps := world.steps + 1 }) := rfl

/-- A step that only looks counts as a step and changes nothing else. -/
theorem outcome_observe {α : Type} (step : IoStep) (operation : Disk → Except IoError α)
    (world : World) : (observe step operation).outcome world =
      (match world.faults world.steps step with
        | some fault => .error fault.error
        | none => operation world.disk, { world with steps := world.steps + 1 }) := by
  unfold observe
  rw [outcome_attempt]
  cases world.faults world.steps step with
  | some fault => rfl
  | none => cases h : operation world.disk <;> simp [Except.map]

/-- Something is at a path if the path can be looked at. -/
theorem outcome_pathExists {ε : Type} (path : Path) (world : World) :
    (pathExists path : Act ε World Bool).outcome world =
      (.ok ((observe .inspect (·.inspect path)).outcome world).1.isOk,
        { world with steps := world.steps + 1 }) := by
  unfold pathExists
  rw [Act.outcome_bind, Act.outcome_settled, outcome_observe]
  generalize (match world.faults world.steps .inspect with
    | some fault => .error fault.error
    | none => world.disk.inspect path : Except IoError Node) = found
  cases found <;> rfl

/-- A world with an empty tree, in which nothing has happened yet and nothing is random. -/
def blank : World := ⟨.empty [], ⟨fun _ => 0, 0⟩, fun _ => default, .none, 0⟩

/-- Nothing but the random source has changed. -/
def Drew (world world' : World) : Prop := ∃ entropy, world' = { world with entropy }

theorem Drew.refl (world : World) : world.Drew world := ⟨world.entropy, rfl⟩

theorem Drew.trans {world₁ world₂ world₃ : World} (h : world₁.Drew world₂)
    (h' : world₂.Drew world₃) : world₁.Drew world₃ := by
  obtain ⟨entropy, rfl⟩ := h
  obtain ⟨entropy', rfl⟩ := h'
  exact ⟨entropy', rfl⟩

end World

end Custody
