import Mathlib.Data.List.Basic

/-! # Matching requests one after the other

Every request takes something of what is left, or nothing.  What a request would take
whenever it is still there is taken by that request or by one before it.
-/

namespace ReqPack.Data.Matching

universe u v

variable {α : Type u} {β : Type v} [DecidableEq α] (choose : List α → β → Option α)

/-- Every request with what it took. -/
def assign : List α → List β → List (β × Option α)
  | _, [] => []
  | available, request :: requests =>
      match choose available request with
      | none => (request, none) :: assign available requests
      | some taken => (request, some taken) :: assign (available.erase taken) requests

variable {choose}

theorem map_fst_assign (available : List α) (requests : List β) :
    (assign choose available requests).map Prod.fst = requests := by
  induction requests generalizing available with
  | nil => rfl
  | cons request requests ih =>
      unfold assign
      split
      · rw [List.map_cons, ih]
      · rw [List.map_cons, ih]

/-- What was taken was chosen from a part of what was there. -/
theorem chosen_of_mem_assign {available : List α} {requests : List β} {request : β} {taken : α}
    (member : (request, some taken) ∈ assign choose available requests) :
    ∃ part, part.Sublist available ∧ choose part request = some taken := by
  induction requests generalizing available with
  | nil => cases member
  | cons first requests ih =>
      unfold assign at member
      split at member
      · rcases List.mem_cons.mp member with same | later
        · cases same
        · exact ih later
      · rename_i other chosen
        rcases List.mem_cons.mp member with same | later
        · cases same
          exact ⟨available, List.Sublist.refl _, chosen⟩
        · obtain ⟨part, within, found⟩ := ih later
          exact ⟨part, within.trans List.erase_sublist, found⟩

/-- A request that would take `wanted` from every part that still has it leaves it to
nobody behind it. -/
theorem assign_covers {available : List α} {requests : List β} {wanted : α} {request : β}
    (present : wanted ∈ available) (listed : request ∈ requests)
    (insists : ∀ part, part.Sublist available → wanted ∈ part → choose part request = some wanted) :
    ∃ taker, (taker, some wanted) ∈ assign choose available requests := by
  induction requests generalizing available with
  | nil => cases listed
  | cons first requests ih =>
      unfold assign
      rcases List.mem_cons.mp listed with rfl | later
      · rw [insists available (List.Sublist.refl _) present]
        exact ⟨request, List.mem_cons_self⟩
      · split
        · obtain ⟨taker, found⟩ := ih present later insists
          exact ⟨taker, List.mem_cons_of_mem _ found⟩
        · rename_i taken chosen
          by_cases same : taken = wanted
          · exact ⟨first, same ▸ List.mem_cons_self⟩
          · have kept : wanted ∈ available.erase taken := (List.mem_erase_of_ne (Ne.symm same)).mpr present
            obtain ⟨taker, found⟩ := ih kept later fun part within =>
              insists part (within.trans List.erase_sublist)
            exact ⟨taker, List.mem_cons_of_mem _ found⟩

end ReqPack.Data.Matching
