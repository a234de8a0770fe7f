import ReqPack.Data.Ordering
import ReqPack.Core.Graph
import ReqPack.Core.Platform

/-! # Plugin dependencies

What the planner knows about plugins: which systems are gateways, which plugin
bundles are installed and what they list as dependencies, and which packages a
plugin reports as missing.
-/

namespace ReqPack.Planner

open ReqPack.Data ReqPack.Core

/-- The fields of a `Request` the planner reads. -/
structure Request where
  action : ActionType := .unknown
  system : String := ""
  packages : List String := []
  flags : List String := []
  localPath : String := ""
  usesLocalTarget : Bool := false
deriving Repr, DecidableEq

/-- The two dependency lists of an installed plugin bundle. -/
structure PluginBundle where
  dependencyPackages : List Package := []
  projectPackages : List Package := []
deriving Repr, DecidableEq

/-- The registry, the security gateway and the plugins as the planner sees them.
`bundles` are the bundles found for a system, after the automatic download of a
missing one when that is configured. -/
structure PlannerEnv where
  resolvePluginName : String → String
  gatewayExists : String → Bool
  bundles : List (String × PluginBundle)
  pluginLoads : String → Bool
  getMissingPackages : String → List Package → List Package
  requirementsProvisioned : String → Bool

namespace PlannerEnv

/-- `plugin_bundle_find_installed`. -/
def findInstalled (env : PlannerEnv) (system : String) : Option PluginBundle :=
  (env.bundles.find? fun entry => entry.1 == system).map (·.2)

theorem mem_systems_of_findInstalled {env : PlannerEnv} {system : String} {bundle : PluginBundle}
    (found : env.findInstalled system = some bundle) : system ∈ env.bundles.map (·.1) := by
  simp only [findInstalled, Option.map_eq_some_iff] at found
  obtain ⟨entry, listed, _⟩ := found
  have same : entry.1 = system := by simpa using List.find?_some listed
  exact List.mem_map.mpr ⟨entry, List.mem_of_find?_eq_some listed, same⟩

end PlannerEnv

/-- `planner_normalize_dependency`. -/
def plannerNormalizeDependency (dependency : Package) (defaultSystem : String) : Package :=
  let acted :=
    if dependency.action = .unknown then { dependency with action := .install } else dependency
  if acted.system.isEmpty then { acted with system := defaultSystem } else acted

def resolveDependencySystem (env : PlannerEnv) (dependency : Package) : Package :=
  if dependency.system.isEmpty then dependency
  else { dependency with system := env.resolvePluginName dependency.system }

/-- `propagate_internal_ensure_order_flag`: the first order flag of the source
replaces all order flags of the target. -/
def propagateInternalEnsureOrderFlag (source target : Package) : Package :=
  match source.flags.find? fun flag => startsWith flag internalEnsureOrderFlag with
  | none => target
  | some order =>
      { target with
        flags := (target.flags.filter fun flag => !startsWith flag internalEnsureOrderFlag) ++ [order] }

/-- The form in which `addPackageToGraph` uses a dependency of a bundle. -/
def dependencyOf (env : PlannerEnv) (current dependency : Package) : Package :=
  let normalized :=
    resolveDependencySystem env (plannerNormalizeDependency dependency current.system)
  let ensured :=
    if current.action = .ensure then
      propagateInternalEnsureOrderFlag current { normalized with action := .ensure }
    else normalized
  { ensured with directRequest := false }

/-- A dependency no plugin is asked about counts as missing. -/
def assumedMissing (env : PlannerEnv) (dependency : Package) : Bool :=
  dependency.system.isEmpty || env.gatewayExists dependency.system ||
    !env.pluginLoads dependency.system

/-- `Planner::filterMissingDependencies`: the plugins are asked system by system,
in the order of the resolved names. -/
def filterMissingDependencies (env : PlannerEnv) (dependencies : List Package) : List Package :=
  let asked := dependencies.filter fun dependency => !assumedMissing env dependency
  let systems := stableSort textLess
    (asked.map fun dependency => env.resolvePluginName dependency.system).dedup
  dependencies.filter (assumedMissing env) ++ systems.flatMap fun system =>
    env.getMissingPackages system
      (asked.filter fun dependency => env.resolvePluginName dependency.system == system)

/-- The dependencies `addPackageToGraph` goes on to for a package it expands. -/
def missingDependencies (env : PlannerEnv) (current : Package) : List Package :=
  match env.findInstalled current.system with
  | none => []
  | some bundle =>
      filterMissingDependencies env
        (bundle.dependencyPackages.map (dependencyOf env current) ++
          bundle.projectPackages.map (dependencyOf env current))

/-- `Planner::pluginRequirementsSatisfied`. -/
def pluginRequirementsSatisfied (env : PlannerEnv) (system : String) : Bool :=
  match env.findInstalled system with
  | none => false
  | some bundle =>
      (filterMissingDependencies env
        ((bundle.dependencyPackages ++ bundle.projectPackages).map fun dependency =>
          resolveDependencySystem env (plannerNormalizeDependency dependency system))).isEmpty

/-- `Planner::shouldInstallPluginDependencies`; the marker it may leave only makes
a later call return the same. -/
def shouldInstallPluginDependencies (env : PlannerEnv) (system : String) : Bool :=
  let resolved := env.resolvePluginName system
  !env.requirementsProvisioned resolved && !pluginRequirementsSatisfied env resolved

/-- `std::filesystem::path::filename` on a POSIX path. -/
def fileName (path : String) : String :=
  String.ofList (path.toList.reverse.takeWhile (· != '/')).reverse

/-- `planner_make_requested_package`: the version stands behind the last `@`,
unless that is the first or the last character. -/
def plannerMakeRequestedPackage (request : Request) (resolvedSystem specifier : String) : Package :=
  let package : Package :=
    { action := request.action, system := resolvedSystem, flags := request.flags, directRequest := true }
  let characters := specifier.toList
  let version := (characters.reverse.takeWhile (· != '@')).reverse
  let name := characters.take (characters.length - version.length - 1)
  if '@' ∉ characters || name.isEmpty || version.isEmpty then { package with name := specifier }
  else { package with name := String.ofList name, version := String.ofList version }

/-- `planner_make_local_requested_package`. -/
def plannerMakeLocalRequestedPackage (request : Request) (resolvedSystem : String) : Package :=
  { action := request.action, system := resolvedSystem, name := fileName request.localPath,
    sourcePath := request.localPath, localTarget := true, flags := request.flags,
    directRequest := true }

/-- The packages `addRequestToGraph` puts into the graph. -/
def requestedPackages (env : PlannerEnv) (request : Request) : List Package :=
  let resolved := env.resolvePluginName request.system
  if request.packages.isEmpty then
    if request.usesLocalTarget then [plannerMakeLocalRequestedPackage request resolved] else []
  else request.packages.map (plannerMakeRequestedPackage request resolved)

end ReqPack.Planner
