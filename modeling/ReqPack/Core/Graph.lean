import ReqPack.Data.Digraph
import ReqPack.Core.Package

/-! # The package graph

Vertices are numbered in the order in which they were added, as the vertex
descriptors of an adjacency list with vector storage are.  An edge leads from a
dependency to the package that needs it.
-/

namespace ReqPack.Core

open ReqPack.Data

/-- A package graph; an edge between vertices that do not exist cannot be built. -/
structure Graph where
  packages : List Package
  edges : List (Nat × Nat)
  bounded : ∀ edge ∈ edges, edge.1 < packages.length ∧ edge.2 < packages.length

/-- Whether an edge is there already. -/
instance decidableEdge (edge : Nat × Nat) (edges : List (Nat × Nat)) : Decidable (edge ∈ edges) := inferInstance

namespace Graph

def empty : Graph := ⟨[], [], by simp⟩

/-- `graph[vertex]`. -/
def package (graph : Graph) (vertex : Nat) : Package := graph.packages.getD vertex {}

def numVertices (graph : Graph) : Nat := graph.packages.length

def IsDag (graph : Graph) : Prop := Acyclic graph.edges

/-- The vertices are pairwise different under `planner_same_package`. -/
def DistinctPackages (graph : Graph) : Prop :=
  graph.packages.Pairwise fun left right => plannerSamePackage left right = false

theorem package_eq_getElem (graph : Graph) {vertex : Nat} (bound : vertex < graph.packages.length) :
    graph.package vertex = graph.packages[vertex] := by
  simp [package, List.getD_eq_getElem?_getD, bound]

theorem package_mem (graph : Graph) {vertex : Nat} (bound : vertex < graph.packages.length) :
    graph.package vertex ∈ graph.packages := by
  rw [graph.package_eq_getElem bound]
  exact List.getElem_mem bound

end Graph

end ReqPack.Core
