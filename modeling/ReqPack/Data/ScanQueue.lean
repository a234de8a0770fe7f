import Mathlib.Data.List.Basic

/-! # One turn through a queue

A queue is gone through once: stale candidates are dropped, blocked ones go to the
back, and the first other one is taken.
-/

namespace ReqPack.Data

universe u

section Scan

variable {α : Type u} (stale blocked : α → Bool)

def scanQueue : Nat → List α → Option α × List α
  | 0, queue => (none, queue)
  | _ + 1, [] => (none, [])
  | attempts + 1, candidate :: queue =>
      if stale candidate then scanQueue attempts queue
      else if blocked candidate then scanQueue attempts (queue ++ [candidate])
      else (some candidate, queue)

variable {stale blocked}

/-- What the scan found, and what it left in the queue. -/
structure Scanned (stale blocked : α → Bool) (seen queue : List α) (result : Option α × List α) : Prop where
  found : ∀ candidate, result.1 = some candidate →
    candidate ∈ seen ∧ stale candidate = false ∧ blocked candidate = false
  exhausted : result.1 = none → ∀ candidate ∈ seen, stale candidate = false → blocked candidate = true
  kept : ∀ candidate ∈ queue, stale candidate = false → result.1 ≠ some candidate → candidate ∈ result.2
  subset : ∀ candidate ∈ result.2, candidate ∈ queue

/-- The induction is on the candidates the scan has not reached yet; those it
rotated to the back stand behind them. -/
theorem scanQueue_spec (front back : List α) :
    Scanned stale blocked front (front ++ back) (scanQueue stale blocked front.length (front ++ back)) := by
  induction front generalizing back with
  | nil =>
      exact ⟨by simp [scanQueue], by simp, fun candidate member _ _ => by simpa [scanQueue] using member,
        by simp [scanQueue]⟩
  | cons candidate front ih =>
      simp only [List.length_cons, List.cons_append, scanQueue]
      by_cases dropped : stale candidate = true
      · rw [if_pos dropped]
        have rest := ih back
        refine ⟨fun other found => ?_, fun none other member fresh => ?_,
          fun other member fresh different => ?_, fun other member => ?_⟩
        · obtain ⟨member, properties⟩ := rest.found other found
          exact ⟨List.mem_cons_of_mem _ member, properties⟩
        · rcases List.mem_cons.mp member with rfl | later
          · simp [dropped] at fresh
          · exact rest.exhausted none other later fresh
        · rcases List.mem_cons.mp member with rfl | later
          · simp [dropped] at fresh
          · exact rest.kept other later fresh different
        · exact List.mem_cons_of_mem _ (rest.subset other member)
      · have fresh : stale candidate = false := by simpa using dropped
        rw [if_neg dropped]
        by_cases busy : blocked candidate = true
        · rw [if_pos busy, List.append_assoc]
          have rest := ih (back ++ [candidate])
          refine ⟨fun other found => ?_, fun none other member fresh => ?_,
            fun other member fresh different => ?_, fun other member => ?_⟩
          · obtain ⟨member, properties⟩ := rest.found other found
            exact ⟨List.mem_cons_of_mem _ member, properties⟩
          · rcases List.mem_cons.mp member with rfl | later
            · exact busy
            · exact rest.exhausted none other later fresh
          · refine rest.kept other ?_ fresh different
            simp only [List.mem_cons, List.mem_append] at member ⊢
            tauto
          · have inQueue := rest.subset other member
            simp only [List.mem_cons, List.mem_append, List.not_mem_nil, or_false] at inQueue ⊢
            tauto
        · rw [if_neg busy]
          refine ⟨fun other found => ?_, fun none => ?_, fun other member fresh different => ?_,
            fun other member => List.mem_cons_of_mem _ member⟩
          · simp only [Option.some.injEq] at found
            subst other
            exact ⟨List.mem_cons_self, fresh, by simpa using busy⟩
          · simp at none
          · rcases List.mem_cons.mp member with rfl | later
            · exact absurd rfl different
            · exact later

/-- One turn, which sees every candidate. -/
theorem scanQueue_turn (queue : List α) :
    Scanned stale blocked queue queue (scanQueue stale blocked queue.length queue) := by
  simpa using scanQueue_spec queue []

/-- The scan stops at the first candidate that is not blocked. -/
theorem scanQueue_first {front rest : List α} {target : α} {attempts : Nat} (enough : front.length < attempts)
    (passed : ∀ candidate ∈ front, stale candidate = false ∧ blocked candidate = true)
    (fresh : stale target = false) (free : blocked target = false) :
    scanQueue stale blocked attempts (front ++ target :: rest) = (some target, rest ++ front) := by
  induction front generalizing rest attempts with
  | nil =>
      obtain ⟨attempts, rfl⟩ := Nat.exists_eq_add_one_of_ne_zero (Nat.ne_of_gt enough)
      simp [scanQueue, fresh, free]
  | cons candidate front ih =>
      obtain ⟨attempts, rfl⟩ := Nat.exists_eq_add_one_of_ne_zero (Nat.ne_of_gt (Nat.zero_lt_of_lt enough))
      obtain ⟨kept, busy⟩ := passed candidate List.mem_cons_self
      have behind := @ih (rest ++ [candidate]) attempts (by simpa using enough)
        fun other member => passed other (List.mem_cons_of_mem _ member)
      simp only [List.cons_append, scanQueue, kept, busy, if_true, Bool.false_eq_true, if_false]
      rw [List.append_assoc, List.cons_append, behind, List.append_assoc, List.singleton_append]

end Scan

end ReqPack.Data
