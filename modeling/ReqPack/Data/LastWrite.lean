import Mathlib.Data.List.Basic

/-! # The last write to a cell

A run of steps, each of which writes to some cells and leaves the others alone.  What a
cell holds afterwards is what the last step wrote that touched it.
-/

namespace ReqPack.Data

universe u v w

variable {α : Type u} {κ : Type v} {β : Type w}

/-- What the steps leave in the cells; `none` is a cell a step does not touch. -/
def replay (effect : α → κ → Option β) : List α → (κ → β) → κ → β
  | [], cells => cells
  | step :: steps, cells => replay effect steps fun key => (effect step key).getD (cells key)

section Replay

variable {effect : α → κ → Option β} {steps before after : List α} {step : α} {cells : κ → β} {key : κ} {value : β}

theorem replay_append (effect : α → κ → Option β) (before after : List α) (cells : κ → β) :
    replay effect (before ++ after) cells = replay effect after (replay effect before cells) := by
  induction before generalizing cells with
  | nil => rfl
  | cons step before ih => exact ih _

theorem replay_untouched (untouched : ∀ step ∈ steps, effect step key = none) :
    replay effect steps cells key = cells key := by
  induction steps generalizing cells with
  | nil => rfl
  | cons step steps ih =>
      rw [replay, ih fun later member => untouched later (List.mem_cons_of_mem step member),
        untouched step List.mem_cons_self]
      rfl

theorem replay_last (writes : effect step key = some value) (untouched : ∀ later ∈ after, effect later key = none) :
    replay effect (before ++ step :: after) cells key = value := by
  rw [replay_append, replay, replay_untouched untouched, writes]
  rfl

/-- Of the steps that touch a cell one is the last. -/
theorem exists_last_write (touched : ∃ step ∈ steps, effect step key ≠ none) :
    ∃ before step after value, steps = before ++ step :: after ∧ effect step key = some value ∧
      ∀ later ∈ after, effect later key = none := by
  induction steps with
  | nil =>
      obtain ⟨step, member, _⟩ := touched
      cases member
  | cons first steps ih =>
      by_cases again : ∃ step ∈ steps, effect step key ≠ none
      · obtain ⟨before, step, after, value, rfl, writes, untouched⟩ := ih again
        exact ⟨first :: before, step, after, value, rfl, writes, untouched⟩
      · have untouched : ∀ later ∈ steps, effect later key = none := by
          intro later member
          by_contra writes
          exact again ⟨later, member, writes⟩
        obtain ⟨step, member, writes⟩ := touched
        rcases List.mem_cons.mp member with rfl | later
        · obtain ⟨value, written⟩ := Option.ne_none_iff_exists'.mp writes
          exact ⟨[], step, steps, value, rfl, written, untouched⟩
        · exact absurd (untouched step later) writes

end Replay

end ReqPack.Data
