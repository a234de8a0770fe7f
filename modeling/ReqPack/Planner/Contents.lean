import ReqPack.Planner.Build

/-! # What the planner puts into its graph

An induction rule for the construction of the graph: what adding a vertex and
adding an edge keep, the whole construction keeps.
-/

namespace ReqPack.Planner

open ReqPack.Data ReqPack.Core

variable {env : PlannerEnv}

/-- A property of graphs that the steps of the construction keep, as long as the
packages they add are allowed. -/
structure Kept (env : PlannerEnv) (allowed : Package → Prop) (property : Graph → Prop) : Prop where
  vertex : ∀ graph package, allowed package → property graph →
    property (findOrAddPackageVertex graph package).1
  edge : ∀ graph source target, property graph → property (addEdge graph source target)
  dependency : ∀ current, allowed current → ∀ dependency ∈ missingDependencies env current, allowed dependency

variable {allowed : Package → Prop} {property : Graph → Prop}

theorem Kept.foldlM_dependencies (kept : Kept env allowed property) {fuel vertex : Nat}
    {activeSystems : List String}
    (calls : ∀ graph dependency after reached, allowed dependency → property graph →
      addPackageWithDependencies env fuel graph dependency activeSystems = some (after, reached) →
      property after)
    (dependencies : List Package) (all : ∀ dependency ∈ dependencies, allowed dependency)
    {graph after : Graph} (before : property graph)
    (folded : dependencies.foldlM (fun graph dependency =>
      (addPackageWithDependencies env fuel graph dependency activeSystems).map fun reached =>
        if reached.2 ≠ vertex then addEdge reached.1 reached.2 vertex else reached.1) graph = some after) :
    property after := by
  induction dependencies generalizing graph with
  | nil =>
      cases folded
      exact before
  | cons dependency dependencies ih =>
      simp only [List.foldlM_cons, Option.bind_eq_bind, Option.bind_eq_some_iff, Option.map_eq_some_iff] at folded
      obtain ⟨linked, ⟨⟨middle, reached⟩, called, rfl⟩, rest⟩ := folded
      have entered := calls graph dependency middle reached (all _ List.mem_cons_self) before called
      refine ih (fun other member => all other (List.mem_cons_of_mem _ member)) ?_ rest
      dsimp only
      split
      · exact kept.edge _ _ _ entered
      · exact entered

/-- The recursion keeps what its steps keep, by induction on the fuel. -/
theorem Kept.addPackageWithDependencies (kept : Kept env allowed property) {fuel : Nat} {graph : Graph}
    {package : Package} {activeSystems : List String} {after : Graph} {vertex : Nat}
    (permitted : allowed package) (first : property (findOrAddPackageVertex graph package).1)
    (added : addPackageWithDependencies env fuel graph package activeSystems = some (after, vertex)) :
    property after := by
  induction fuel generalizing graph package activeSystems after vertex with
  | zero => simp [Planner.addPackageWithDependencies] at added
  | succ fuel ih =>
      simp only [Planner.addPackageWithDependencies] at added
      split at added
      · rw [Option.some.injEq] at added
        rwa [added] at first
      · split at added
        · rw [Option.some.injEq] at added
          rwa [added] at first
        · simp only [Option.map_eq_some_iff] at added
          obtain ⟨final, folded, same⟩ := added
          cases same
          refine kept.foldlM_dependencies (fun graph dependency after reached permitted before called => ?_) _
            (kept.dependency package permitted) first folded
          exact ih permitted (kept.vertex graph dependency permitted before) called

theorem Kept.addRequested (kept : Kept env allowed property) {graph after : Graph} {entry : Package × Bool}
    (permitted : allowed entry.1) (first : property (findOrAddPackageVertex graph entry.1).1)
    (added : addRequested env graph entry = some after) : property after := by
  unfold Planner.addRequested addPackageToGraph at added
  split at added
  · rw [Option.map_eq_some_iff] at added
    obtain ⟨⟨final, vertex⟩, called, rfl⟩ := added
    exact kept.addPackageWithDependencies permitted first called
  · cases added
    exact first

theorem Kept.addAllRequested (kept : Kept env allowed property) {entries : List (Package × Bool)}
    {graph after : Graph} (permitted : ∀ entry ∈ entries, allowed entry.1) (before : property graph)
    (added : addAllRequested env graph entries = some after) : property after := by
  induction entries generalizing graph with
  | nil =>
      cases added
      exact before
  | cons entry entries ih =>
      simp only [Planner.addAllRequested, List.foldlM_cons, Option.bind_eq_bind, Option.bind_eq_some_iff] at added
      obtain ⟨middle, first, rest⟩ := added
      have entered := kept.addRequested (permitted _ List.mem_cons_self)
        (kept.vertex graph entry.1 (permitted _ List.mem_cons_self) before) first
      exact ih (fun other member => permitted other (List.mem_cons_of_mem _ member)) entered rest

section Packages

theorem plannerMakeRequestedPackage_action (request : Request) (resolvedSystem specifier : String) :
    (plannerMakeRequestedPackage request resolvedSystem specifier).action = request.action := by
  simp only [plannerMakeRequestedPackage]
  split <;> rfl

theorem requestedPackages_action {request : Request} {package : Package}
    (member : package ∈ requestedPackages env request) : package.action = request.action := by
  simp only [requestedPackages] at member
  split at member
  · split at member
    · rw [List.mem_singleton.mp member]
      rfl
    · simp at member
  · obtain ⟨specifier, _, rfl⟩ := List.mem_map.mp member
    exact plannerMakeRequestedPackage_action _ _ _

@[simp] theorem addEdge_packages (graph : Graph) (source target : Nat) :
    (addEdge graph source target).packages = graph.packages := by
  unfold addEdge
  split
  · split <;> rfl
  · rfl

theorem findOrAddPackageVertex_packages (graph : Graph) (package : Package) :
    (findOrAddPackageVertex graph package).1.packages =
      match graph.packages.findIdx? fun other => plannerSamePackage other package with
      | some vertex => graph.packages.modify vertex fun other =>
          { other with directRequest := other.directRequest || package.directRequest }
      | none => graph.packages ++ [package] := by
  unfold findOrAddPackageVertex
  cases graph.packages.findIdx? fun other => plannerSamePackage other package <;> rfl

/-- What holds of all packages that are added holds of all packages of the graph, when
the mark of a direct request plays no part in it. -/
theorem kept_of_packages {holds : Package → Prop}
    (unmarked : ∀ package marked, holds package → holds { package with directRequest := marked })
    (dependency : ∀ current, holds current → ∀ dependency ∈ missingDependencies env current, holds dependency) :
    Kept env holds fun graph => ∀ package ∈ graph.packages, holds package where
  vertex := by
    intro graph package permitted before other member
    rw [findOrAddPackageVertex_packages] at member
    split at member
    · obtain ⟨index, bound, rfl⟩ := List.getElem_of_mem member
      rw [List.getElem_modify]
      rw [List.length_modify] at bound
      split
      · exact unmarked _ _ (before _ (List.getElem_mem bound))
      · exact before _ (List.getElem_mem bound)
    · rcases List.mem_append.mp member with old | new
      · exact before other old
      · rw [List.mem_singleton.mp new]
        exact permitted
  edge := by
    intro graph source target before other member
    rw [addEdge_packages] at member
    exact before other member
  dependency := dependency

end Packages

end ReqPack.Planner
