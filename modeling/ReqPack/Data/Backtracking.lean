import Mathlib.Combinatorics.SimpleGraph.Connectivity.Connected

/-! # Searches that forget where they were

A depth-first search that unmarks a vertex when it leaves it enters a vertex again on
every simple path to it.  It finds what is connected to its start, and it ends as long
as the vertices it marks come from a list.
-/

namespace ReqPack.Data

universe u

variable {α : Type u} {graph : SimpleGraph α} {visiting : List α} {vertex target : α}

/-- A search from the vertex enters the target while it is behind the marked vertices. -/
inductive Visits (graph : SimpleGraph α) : List α → α → α → Prop
  | here {visiting : List α} {vertex : α} (fresh : vertex ∉ visiting) : Visits graph visiting vertex vertex
  | along {visiting : List α} {vertex next target : α} (fresh : vertex ∉ visiting)
      (edge : graph.Adj vertex next) (further : Visits graph (vertex :: visiting) next target) :
      Visits graph visiting vertex target

theorem Visits.reachable (visits : Visits graph visiting vertex target) : graph.Reachable vertex target := by
  induction visits with
  | here => exact SimpleGraph.Reachable.refl _
  | along _ edge _ ih => exact edge.reachable.trans ih

theorem Visits.fresh (visits : Visits graph visiting vertex target) : vertex ∉ visiting := by
  cases visits with
  | here fresh => exact fresh
  | along fresh => exact fresh

theorem Visits.of_isPath {path : graph.Walk vertex target} (simple : path.IsPath)
    (apart : ∀ passed ∈ path.support, passed ∉ visiting) : Visits graph visiting vertex target := by
  induction path generalizing visiting with
  | nil => exact Visits.here (apart _ (by simp))
  | @cons first next last edge path ih =>
      rw [SimpleGraph.Walk.cons_isPath_iff] at simple
      obtain ⟨simple, left⟩ := simple
      refine Visits.along (apart _ (by simp)) edge (ih simple ?_)
      intro passed member
      have other := apart passed (by simp [member])
      have behind : passed ≠ first := fun same => left (same ▸ member)
      simp [behind, other]

/-- From the start it enters what is connected to it. -/
theorem visits_nil_iff : Visits graph [] vertex target ↔ graph.Reachable vertex target := by
  apply Iff.intro
  · intro visits
    exact visits.reachable
  · intro reachable
    obtain ⟨path, simple⟩ := reachable.exists_isPath
    exact Visits.of_isPath simple (by simp)

section Unmarked

variable [DecidableEq α]

/-- The vertices of the list that are not marked. -/
def unmarked (known visiting : List α) : List α := known.filter fun vertex => decide (vertex ∉ visiting)

theorem length_unmarked_cons {known : List α} (listed : vertex ∈ known) (fresh : vertex ∉ visiting) :
    (unmarked known (vertex :: visiting)).length < (unmarked known visiting).length := by
  have kept : unmarked known (vertex :: visiting) =
      (unmarked known visiting).filter fun other => decide (other ≠ vertex) := by
    rw [unmarked, unmarked, List.filter_filter]
    apply List.filter_congr
    intro other _
    simp [not_or]
  have marked : vertex ∈ unmarked known visiting := by
    rw [unmarked, List.mem_filter]
    exact ⟨listed, by simpa using fresh⟩
  rw [kept]
  exact List.length_filter_lt_length_iff_exists.mpr ⟨vertex, marked, by simp⟩

end Unmarked

end ReqPack.Data
