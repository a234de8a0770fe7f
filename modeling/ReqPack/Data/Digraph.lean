import Mathlib.Data.List.Perm.Basic
import Mathlib.Data.List.Nodup
import Mathlib.Data.List.Range
import Mathlib.Logic.Relation

/-! # Finite directed graphs given by a list of edges

Acyclicity is stated through the transitive closure of the edge relation; a rank
that strictly grows along every edge proves it.  `TopologicalOrder` says what a
topological sort has to return.
-/

namespace ReqPack.Data

universe u

section Edges

variable {α : Type u}

def Adjacent (edges : List (α × α)) (source target : α) : Prop := (source, target) ∈ edges

def Acyclic (edges : List (α × α)) : Prop :=
  ∀ vertex, ¬ Relation.TransGen (Adjacent edges) vertex vertex

theorem rank_lt_of_transGen {relation : α → α → Prop} {rank : α → Nat}
    (grows : ∀ source target, relation source target → rank source < rank target)
    {source target : α} (path : Relation.TransGen relation source target) :
    rank source < rank target := by
  induction path with
  | single edge => exact grows _ _ edge
  | tail _ edge ih => exact Nat.lt_trans ih (grows _ _ edge)

theorem acyclic_of_rank {edges : List (α × α)} (rank : α → Nat)
    (grows : ∀ edge ∈ edges, rank edge.1 < rank edge.2) : Acyclic edges := by
  intro vertex cycle
  have increases : ∀ source target, Adjacent edges source target → rank source < rank target :=
    fun source target edge => grows (source, target) edge
  exact Nat.lt_irrefl _ (rank_lt_of_transGen increases cycle)

end Edges

/-- A list of all vertices `0 … count - 1` in which every edge points forward. -/
structure TopologicalOrder (count : Nat) (edges : List (Nat × Nat)) (order : List Nat) : Prop where
  perm : order.Perm (List.range count)
  forward : ∀ edge ∈ edges, order.idxOf edge.1 < order.idxOf edge.2

namespace TopologicalOrder

variable {count : Nat} {edges : List (Nat × Nat)} {order : List Nat}

theorem nodup (sorted : TopologicalOrder count edges order) : order.Nodup :=
  sorted.perm.nodup_iff.mpr List.nodup_range

theorem mem_iff (sorted : TopologicalOrder count edges order) {vertex : Nat} :
    vertex ∈ order ↔ vertex < count := by
  rw [sorted.perm.mem_iff, List.mem_range]

theorem acyclic (sorted : TopologicalOrder count edges order) : Acyclic edges :=
  acyclic_of_rank order.idxOf sorted.forward

end TopologicalOrder

end ReqPack.Data
