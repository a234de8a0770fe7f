import Mathlib.Order.RelClasses
import ReqPack.Scheduler.TaskGroups

/-! # The execution order is a linear extension

What `orderedVertices` and `createFromGraph` do with the order that `boost::topological_sort`
returned, put together.
-/

namespace ReqPack.Scheduler

open ReqPack.Data ReqPack.Core

/-- The comparator is a strict weak order, whatever the levels and the flags are. -/
theorem vertexLess_strictWeakOrder (platform : Platform) (graph : Graph) (levels : Nat → Nat) :
    IsStrictWeakOrder Nat fun a b => vertexLess platform graph levels a b = true := by
  have byKey : (fun a b => vertexLess platform graph levels a b = true) =
      Order.Preimage (vertexKey platform graph levels) (· < ·) := by
    funext a b
    exact propext (vertexLess_iff_key_lt platform graph levels a b)
  have keys : IsStrictWeakOrder (Nat ×ₗ WithTop Nat ×ₗ List Char) (· < ·) := isStrictWeakOrder_of_isOrderConnected
  rw [byKey]
  infer_instance

/-- A level is less than the number of vertices, so it fits wherever that number does. -/
theorem SortedBy.level_lt_numVertices {graph : Graph} {sorted : List Nat} (ordered : SortedBy graph sorted)
    {vertex : Nat} (bound : vertex < graph.packages.length) :
    levelsAlong graph.edges sorted.reverse (fun _ => 0) vertex < graph.packages.length := by
  have level := @levelsAlong_le graph.edges sorted.reverse.idxOf ordered.forward sorted.reverse (fun _ => 0)
    (fun _ => Nat.zero_le _) vertex
  have position := List.idxOf_lt_length_iff.2 (ordered.mem_iff.2 bound)
  rw [ordered.perm.length_eq, List.length_range] at position
  exact Nat.lt_of_le_of_lt level position

/-- The comparator is a strict weak order; every vertex stands once in the execution order,
behind everything it depends on; and the groups cut that order into runs of one action and
one system. -/
theorem execution_order_linear_extension {graph : Graph} {sorted : List Nat} (ordered : SortedBy graph sorted) :
    (∀ platform levels, IsStrictWeakOrder Nat fun a b => vertexLess platform graph levels a b = true) ∧
      (∀ platform, (orderedVertices platform graph sorted).Perm (List.range graph.packages.length) ∧
        ∀ edge ∈ graph.edges, (orderedVertices platform graph sorted).idxOf edge.1 <
          (orderedVertices platform graph sorted).idxOf edge.2) ∧
      (createFromGraph .posix graph sorted).flatMap (·.packages) =
        (orderedVertices .posix graph sorted).map graph.package ∧
      ∀ group ∈ createFromGraph .posix graph sorted, group.packages ≠ [] ∧
        ∀ package ∈ group.packages, package.action = group.action ∧ package.system = group.system := by
  refine ⟨fun platform => vertexLess_strictWeakOrder platform graph, ?_, createFromGraph_posix_packages graph sorted, ?_⟩
  · intro platform
    refine ⟨(orderedVertices_perm platform graph sorted).trans ordered.perm, ?_⟩
    intro edge member
    exact ordered.orderedVertices_forward member
  · intro group member
    have coherent := createFromGraph_coherent .posix graph sorted group member
    exact ⟨coherent.nonempty, fun package listed => ⟨coherent.action package listed, coherent.system package listed⟩⟩

/-- Two packages with ensure orders, one of them repeated and one malformed, behind a third. -/
def flaggedGraph : Graph where
  packages := [{ action := .ensure, system := "apt", name := "curl" },
    { action := .ensure, system := "pip", name := "numpy", flags := ["__reqpack-internal-ensure-order=x"] },
    { action := .ensure, system := "npm", name := "left-pad",
      flags := ["__reqpack-internal-ensure-order=2", "__reqpack-internal-ensure-order=1"] }]
  edges := [(0, 1), (0, 2)]
  bounded := by decide

theorem execution_order_linear_extension_flagged :
    orderedVertices .posix flaggedGraph [1, 2, 0] = [0, 2, 1] ∧
      (createFromGraph .posix flaggedGraph [1, 2, 0]).flatMap (·.packages) =
        [0, 2, 1].map flaggedGraph.package := by
  have ordered : SortedBy flaggedGraph [1, 2, 0] := ⟨by decide, by decide⟩
  have order : orderedVertices .posix flaggedGraph [1, 2, 0] = [0, 2, 1] := by decide +kernel
  have groups := (execution_order_linear_extension ordered).2.2.1
  rw [order] at groups
  exact ⟨order, groups⟩

end ReqPack.Scheduler
