import Mathlib.Tactic.TypeStar

/-! # Steps that never lower a measure

A run of such steps keeps the measure exactly when every step of it does.
-/

namespace ReqPack.Data

variable {σ ι : Type*} {measure : σ → Nat} {before middle after state : σ} {harms rest : Prop}

/-- The step does not lower the measure, and keeps it unless it harms. -/
def Costs (measure : σ → Nat) (before after : σ) (harms : Prop) : Prop :=
  measure before ≤ measure after ∧ (measure after = measure before ↔ ¬ harms)

theorem Costs.quiet (same : measure after = measure before) (harmless : ¬ harms) : Costs measure before after harms :=
  ⟨Nat.le_of_eq same.symm, iff_of_true same harmless⟩

theorem Costs.raised (higher : measure before < measure after) (harmful : harms) : Costs measure before after harms :=
  ⟨Nat.le_of_lt higher, iff_of_false (Nat.ne_of_gt higher) fun harmless => harmless harmful⟩

theorem Costs.congr (costs : Costs measure before after harms) (same : harms ↔ rest) : Costs measure before after rest :=
  ⟨costs.1, costs.2.trans (not_congr same)⟩

/-- What follows does not change the measure. -/
theorem Costs.then (costs : Costs measure before middle harms) (same : measure after = measure middle) :
    Costs measure before after harms := by
  rw [Costs, same]
  exact costs

theorem Costs.trans (costs : Costs measure before middle harms) (more : Costs measure middle after rest) :
    Costs measure before after (harms ∨ rest) := by
  obtain ⟨grows, same⟩ := costs
  obtain ⟨growsMore, sameMore⟩ := more
  refine ⟨Nat.le_trans grows growsMore, ?_⟩
  rw [not_or, ← same, ← sameMore]
  omega

/-! ## Loops -/

/-- The items of a loop, each with the state it is handled in. -/
def loopStates (step : σ → ι → σ) : List ι → σ → List (ι × σ)
  | [], _ => []
  | item :: items, state => (item, state) :: loopStates step items (step state item)

variable {step : σ → ι → σ} {sound : σ → Prop} {spoils : ι → σ → Prop}

theorem sound_foldl (kept : ∀ state item, sound state → sound (step state item)) (items : List ι)
    (holds : sound state) : sound (items.foldl step state) := by
  induction items generalizing state with
  | nil => exact holds
  | cons item items ih => exact ih (kept state item holds)

theorem Costs.foldl (kept : ∀ state item, sound state → sound (step state item))
    (single : ∀ state item, sound state → Costs measure state (step state item) (spoils item state))
    (items : List ι) (holds : sound state) :
    Costs measure state (items.foldl step state) (∃ entry ∈ loopStates step items state, spoils entry.1 entry.2) := by
  induction items generalizing state with
  | nil => exact Costs.quiet rfl (by simp [loopStates])
  | cons item items ih =>
      refine ((single state item holds).trans (ih (kept state item holds))).congr ?_
      simp [loopStates]

end ReqPack.Data
