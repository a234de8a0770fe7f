import Mathlib.Data.List.Basic

/-! # Machines with a partial step function

A machine is given by a function that takes a state and an event and either
refuses the event or returns the next state.  A run is a list of events all of
which were accepted.  Nothing here knows which program the events come from.
-/

namespace ReqPack.Data

universe u v

/-- Feed a list of events to a partial step function, in order. -/
def runEvents {σ : Type u} {ε : Type v} (step : σ → ε → Option σ) : σ → List ε → Option σ
  | state, [] => some state
  | state, event :: events => (step state event).bind fun next => runEvents step next events

section Runs

variable {σ : Type u} {ε : Type v} {step : σ → ε → Option σ}

theorem runEvents_cons {state final : σ} {event : ε} {events : List ε}
    (run : runEvents step state (event :: events) = some final) :
    ∃ next, step state event = some next ∧ runEvents step next events = some final := by
  simpa only [runEvents, Option.bind_eq_some_iff] using run

theorem runEvents_cons_of {state next final : σ} {event : ε} {events : List ε} (accepted : step state event = some next)
    (rest : runEvents step next events = some final) : runEvents step state (event :: events) = some final := by
  rw [runEvents, accepted, Option.bind_some, rest]

theorem runEvents_append {state middle : σ} {first : List ε} (run : runEvents step state first = some middle)
    (second : List ε) : runEvents step state (first ++ second) = runEvents step middle second := by
  induction first generalizing state with
  | nil =>
      cases run
      rfl
  | cons event first ih =>
      obtain ⟨after, accepted, rest⟩ := runEvents_cons run
      rw [List.cons_append, runEvents, accepted, Option.bind_some]
      exact ih rest

/-- The invariant rule for runs whose events all meet a condition. -/
theorem runEvents_invariant_of {invariant : σ → Prop} {condition : ε → Prop}
    (preserved : ∀ state event next, condition event → invariant state → step state event = some next →
      invariant next)
    {state final : σ} {events : List ε} (met : ∀ event ∈ events, condition event)
    (initially : invariant state) (run : runEvents step state events = some final) : invariant final := by
  induction events generalizing state with
  | nil =>
      cases run
      exact initially
  | cons event events ih =>
      obtain ⟨next, accepted, rest⟩ := runEvents_cons run
      have here := preserved state event next (met event List.mem_cons_self) initially accepted
      exact ih (fun later member => met later (List.mem_cons_of_mem _ member)) here rest

/-- The invariant rule: what every accepted step preserves, every run preserves. -/
theorem runEvents_invariant {invariant : σ → Prop}
    (preserved : ∀ state event next, invariant state → step state event = some next →
      invariant next)
    {state final : σ} {events : List ε} (initially : invariant state)
    (run : runEvents step state events = some final) : invariant final :=
  runEvents_invariant_of (fun state event next (_ : True) => preserved state event next)
    (fun _ _ => True.intro) initially run

end Runs

section Folds

variable {σ : Type u} {ε : Type v} {step : σ → ε → σ}

/-- A reflexive and transitive relation that every step of a loop respects leads
from the state before the loop to the state behind it. -/
theorem foldl_respects (respects : σ → σ → Prop) (reflexive : ∀ state, respects state state)
    (transitive : ∀ first second third, respects first second → respects second third →
      respects first third)
    (stepwise : ∀ state event, respects state (step state event)) (events : List ε) (state : σ) :
    respects state (events.foldl step state) := by
  induction events generalizing state with
  | nil => exact reflexive state
  | cons event events ih => exact transitive _ _ _ (stepwise state event) (ih (step state event))

end Folds

end ReqPack.Data
