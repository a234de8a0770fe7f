import ReqPack.Planner.Dependencies

/-! # Building the package graph

`Planner::buildDag` and `buildDependencyDag`.  The recursion of
`addPackageToGraph` is on fuel; `none` means that the fuel ran out.
-/

namespace ReqPack.Planner

open ReqPack.Data ReqPack.Core

/-- `boost::add_edge` behind the test that the edge is not there yet. -/
def addEdge (graph : Graph) (source target : Nat) : Graph :=
  if bounds : source < graph.packages.length ∧ target < graph.packages.length then
    if (source, target) ∈ graph.edges then graph
    else
      { graph with
        edges := graph.edges ++ [(source, target)]
        bounded := by
          intro edge member
          rcases List.mem_append.mp member with old | new
          · exact graph.bounded edge old
          · rw [List.mem_singleton.mp new]
            exact bounds }
  else graph

/-- `find_or_add_package_vertex`. -/
def findOrAddPackageVertex (graph : Graph) (package : Package) : Graph × Nat :=
  match graph.packages.findIdx? fun other => plannerSamePackage other package with
  | some vertex =>
      ({ graph with
          packages := graph.packages.modify vertex fun other =>
            { other with directRequest := other.directRequest || package.directRequest }
          bounded := by simpa using graph.bounded }, vertex)
  | none =>
      ({ graph with
          packages := graph.packages ++ [package]
          bounded := by
            intro edge member
            have bounds := graph.bounded edge member
            simp only [List.length_append, List.length_singleton]
            omega }, graph.packages.length)

/-- `addPackageWithDependencies`, the recursion inside `Planner::addPackageToGraph`. -/
def addPackageWithDependencies (env : PlannerEnv) :
    Nat → Graph → Package → List String → Option (Graph × Nat)
  | 0, _, _, _ => none
  | fuel + 1, graph, current, activeSystems =>
      let added := findOrAddPackageVertex graph current
      if current.system ∈ activeSystems then some added
      else if env.gatewayExists current.system then some added
      else
        ((missingDependencies env current).foldlM (fun graph dependency =>
          (addPackageWithDependencies env fuel graph dependency
            (activeSystems ++ [current.system])).map fun reached =>
              if reached.2 ≠ added.2 then addEdge reached.1 reached.2 added.2 else reached.1)
          added.1).map fun graph => (graph, added.2)

/-- Enough fuel for every chain of pairwise different systems with a bundle. -/
def plannerFuel (env : PlannerEnv) : Nat := env.bundles.length + 2

/-- `Planner::addPackageToGraph`. -/
def addPackageToGraph (env : PlannerEnv) (graph : Graph) (package : Package) : Option Graph :=
  (addPackageWithDependencies env (plannerFuel env) graph package []).map (·.1)

/-- Put one requested package into the graph, with or without its dependencies. -/
def addRequested (env : PlannerEnv) (graph : Graph) (entry : Package × Bool) : Option Graph :=
  if entry.2 then addPackageToGraph env graph entry.1
  else some (findOrAddPackageVertex graph entry.1).1

def addAllRequested (env : PlannerEnv) (graph : Graph) (entries : List (Package × Bool)) :
    Option Graph :=
  entries.foldlM (addRequested env) graph

/-- Whether `buildDag` adds the plugin dependencies of a request. -/
def includeDependencies (env : PlannerEnv) (request : Request) : Bool :=
  request.action == .install && !env.gatewayExists request.system &&
    shouldInstallPluginDependencies env (env.resolvePluginName request.system)

/-- What `buildDag` puts into the graph, in order. -/
def requestedEntries (env : PlannerEnv) (requests : List Request) : List (Package × Bool) :=
  requests.flatMap fun request =>
    (requestedPackages env request).map fun package => (package, includeDependencies env request)

/-- `Planner::buildDag`. -/
def buildDag (env : PlannerEnv) (requests : List Request) : Option Graph :=
  addAllRequested env .empty (requestedEntries env requests)

/-- `Planner::buildDependencyDag`. -/
def buildDependencyDag (env : PlannerEnv) (dependencies : List Package) : Option Graph :=
  addAllRequested env .empty (dependencies.map fun dependency => (dependency, true))

end ReqPack.Planner
