import Custody.Proofs.Act

set_option autoImplicit false

/-! # Two runs side by side

`Act.Couples` says of two operations that, started on states that belong together, they come to
answers that belong together or to the same error, and leave behind states that belong together. It
is built up along the operations: `Act.Couples.bind` puts two parts together. -/

namespace Custody.Act

variable {ε ε' σ α β : Type}

/-- Two runs have ended alike: with answers and states that belong together, or with the same error
    and states that do so in another way. -/
inductive Coupled (answers : α → α → Prop) (done failed : σ → σ → Prop) :
    Except ε α × σ → Except ε α × σ → Prop
  | answered {a a' : α} {s s' : σ} (hanswers : answers a a') (hdone : done s s') :
    Coupled answers done failed (.ok a, s) (.ok a', s')
  | failed {s s' : σ} (e : ε) (hfailed : failed s s') :
    Coupled answers done failed (.error e, s) (.error e, s')

/-- On states that belong together, the operations end alike. -/
def Couples (start : σ → σ → Prop) (answers : α → α → Prop) (done failed : σ → σ → Prop)
    (x x' : Act ε σ α) : Prop :=
  ∀ s s', start s s' → Coupled answers done failed (x.outcome s) (x'.outcome s')

variable {start middle done failed : σ → σ → Prop} {answers : α → α → Prop}
  {answers' : β → β → Prop}

section Coupled

variable {end₁ end₂ : Except ε α × σ}

/-- Runs that have ended alike have ended with one result, if answers that belong together are
    equal. -/
theorem Coupled.fst_eq (h : Coupled Eq done failed end₁ end₂) : end₂.1 = end₁.1 := by
  cases h with
  | answered ha hs => rw [ha]
  | failed e hs => rfl

theorem Coupled.snd (h : Coupled answers done done end₁ end₂) : done end₁.2 end₂.2 := by
  cases h with
  | answered ha hs => exact hs
  | failed e hs => exact hs

end Coupled

namespace Couples

theorem pure {a a' : α} (h : answers a a') :
    Couples (ε := ε) start answers start failed (Pure.pure a) (Pure.pure a') :=
  fun _ _ hs => .answered h hs

theorem throw (hfailed : ∀ s s', start s s' → failed s s') (e : ε) :
    Couples start answers done failed (MonadExcept.throw e : Act ε σ α) (MonadExcept.throw e) :=
  fun _ _ hs => .failed e (hfailed _ _ hs)

/-- What would come after a failure is of no account. -/
theorem throw_bind (hfailed : ∀ s s', start s s' → failed s s') (e : ε) {f f' : α → Act ε σ β} :
    Couples start answers' done failed ((MonadExcept.throw e : Act ε σ α) >>= f)
      (MonadExcept.throw e >>= f') :=
  fun _ _ hs => .failed e (hfailed _ _ hs)

/-- One part after the other. -/
theorem bind {x x' : Act ε σ α} {f f' : α → Act ε σ β}
    (hx : Couples start answers middle failed x x')
    (hf : ∀ a a', answers a a' → Couples middle answers' done failed (f a) (f' a')) :
    Couples start answers' done failed (x >>= f) (x' >>= f') := by
  intro s s' hs
  have hfirst := hx s s' hs
  rw [outcome_bind, outcome_bind]
  generalize x.outcome s = end₁ at hfirst ⊢
  generalize x'.outcome s' = end₂ at hfirst ⊢
  cases hfirst with
  | answered ha hmiddle => exact hf _ _ ha _ _ hmiddle
  | failed e hs => exact .failed e hs

/-- One part after the other, where the first gives the same answer. -/
theorem bind_eq {x x' : Act ε σ α} {f f' : α → Act ε σ β}
    (hx : Couples start Eq middle failed x x')
    (hf : ∀ a, Couples middle answers' done failed (f a) (f' a)) :
    Couples start answers' done failed (x >>= f) (x' >>= f') := by
  refine bind hx ?_
  rintro a _ rfl
  exact hf a

theorem map {x x' : Act ε σ α} (h : Couples start answers done failed x x') {f : α → β}
    (hf : ∀ a a', answers a a' → answers' (f a) (f a')) :
    Couples start answers' done failed (f <$> x) (f <$> x') := by
  intro s s' hs
  have hend := h s s' hs
  rw [outcome_map, outcome_map]
  generalize x.outcome s = end₁ at hend ⊢
  generalize x'.outcome s' = end₂ at hend ⊢
  cases hend with
  | answered ha hs => exact .answered (hf _ _ ha) hs
  | failed e hs => exact .failed e hs

theorem mapError {x x' : Act ε σ α} (h : Couples start answers done failed x x')
    (reword : ε → ε') :
    Couples start answers done failed (x.mapError reword) (x'.mapError reword) := by
  intro s s' hs
  have hend := h s s' hs
  rw [outcome_mapError, outcome_mapError]
  generalize x.outcome s = end₁ at hend ⊢
  generalize x'.outcome s' = end₂ at hend ⊢
  cases hend with
  | answered ha hs => exact .answered ha hs
  | failed e hs => exact .failed (reword e) hs

end Couples

end Custody.Act
