import Mathlib.Data.List.TakeWhile
import ReqPack.Planner.Contents
import ReqPack.Planner.Resolution

/-! # Planning requests

`Planner::plan`: requests are resolved, cut down to the packages their plugins
report missing, and put into the graph.
-/

namespace ReqPack.Planner

open ReqPack.Data ReqPack.Core

def plannerContainsOnlyAction (requests : List Request) (action : ActionType) : Bool :=
  !requests.isEmpty && requests.all fun request => request.action == action

/-- `planner_package_specifier_from_package`. -/
def plannerPackageSpecifierFromPackage (package : Package) : String :=
  if package.localTarget && !package.sourcePath.isEmpty then package.sourcePath
  else if package.version.isEmpty then package.name
  else package.name ++ "@" ++ package.version

def plannerFilterRequestToMissingPackages (request : Request) (missingPackages : List Package) : Request :=
  { request with packages := missingPackages.map plannerPackageSpecifierFromPackage }

def plannerFilterInstallRequest (request : Request) (missingPackages : List Package) : Option Request :=
  if missingPackages.isEmpty then none
  else some (plannerFilterRequestToMissingPackages request missingPackages)

section Filter

variable (env : PlannerEnv)

/-- `Planner::filterRequestedPackages` for one request. -/
def filterRequest (request : Request) : Option Request :=
  if request.action ≠ .install || request.packages.isEmpty then some request
  else if env.gatewayExists request.system then some request
  else if !env.pluginLoads request.system then some request
  else
    plannerFilterInstallRequest request (env.getMissingPackages request.system
      (request.packages.map
        (plannerMakeRequestedPackage request (env.resolvePluginName request.system))))

/-- `Planner::filterRequestedPackages`. -/
def filterRequestedPackages (requests : List Request) : List Request := requests.filterMap (filterRequest env)

def setInternalEnsureOrderFlag (package : Package) (order : Nat) : Package :=
  { package with
    flags := (package.flags.filter fun flag => !startsWith flag internalEnsureOrderFlag) ++
      [internalEnsureOrderFlag ++ toString order] }

/-- The form in which an ensure plan starts from a dependency of a bundle. -/
def ensuredDependency (request : Request) (order : Nat) (dependency : Package) : Package :=
  setInternalEnsureOrderFlag
    { resolveDependencySystem env (plannerNormalizeDependency dependency request.system) with
      action := .ensure } order

/-- `Planner::collectPluginDependencies`. -/
def collectPluginDependencies (requests : List Request) : List Package :=
  requests.zipIdx.flatMap fun entry =>
    if env.gatewayExists entry.1.system then []
    else
      match env.findInstalled entry.1.system with
      | none => []
      | some bundle => (bundle.dependencyPackages ++ bundle.projectPackages).map
          (ensuredDependency env entry.1 entry.2)

/-- `Planner::plan`; without a graph when a proxy cannot be resolved. -/
def plan (proxies : Proxies) (requests : List Request) : Option Graph :=
  match resolveRequests proxies requests with
  | .error _ => none
  | .ok expandedRequests =>
      let filteredRequests := filterRequestedPackages env expandedRequests
      if plannerContainsOnlyAction filteredRequests .ensure then
        buildDependencyDag env (filterMissingDependencies env (collectPluginDependencies env filteredRequests))
      else buildDag env filteredRequests

end Filter

section RoundTrip

variable {env : PlannerEnv}

/-- A list with a separator in it ends in the last separator and what stands behind it. -/
theorem split_at_last {separator : Char} {letters : List Char} (present : separator ∈ letters) :
    letters = letters.take (letters.length - (letters.reverse.takeWhile (· != separator)).reverse.length - 1) ++
      separator :: (letters.reverse.takeWhile (· != separator)).reverse := by
  have parts := List.takeWhile_append_dropWhile (p := (· != separator)) (l := letters.reverse)
  cases rest : letters.reverse.dropWhile (· != separator) with
  | nil =>
      have all := List.dropWhile_eq_nil_iff.mp rest separator (List.mem_reverse.mpr present)
      simp at all
  | cons found front =>
      have same : found = separator := by
        have stopped := List.head?_dropWhile_not (· != separator) letters.reverse
        simpa [rest] using stopped
      subst same
      rw [rest] at parts
      generalize letters.reverse.takeWhile (· != found) = back at parts
      have whole : letters = front.reverse ++ found :: back.reverse := by
        rw [← List.reverse_reverse letters, ← parts]
        simp
      have front_eq : letters.take (letters.length - back.reverse.length - 1) = front.reverse := by
        have length : letters.length - back.reverse.length - 1 = front.reverse.length := by
          rw [whole]
          simp
          omega
        rw [length, whole, List.take_left]
      rw [front_eq]
      exact whole

/-- A requested package is written back as it was requested. -/
theorem plannerPackageSpecifierFromPackage_requested (request : Request) (resolvedSystem specifier : String) :
    plannerPackageSpecifierFromPackage (plannerMakeRequestedPackage request resolvedSystem specifier) =
      specifier := by
  simp only [plannerMakeRequestedPackage]
  split
  · simp [plannerPackageSpecifierFromPackage]
  · rename_i versioned
    simp only [Bool.or_eq_true, decide_eq_true_eq, not_or, Decidable.not_not, Bool.not_eq_true,
      List.isEmpty_eq_false_iff] at versioned
    obtain ⟨⟨present, named⟩, numbered⟩ := versioned
    have parts := split_at_last present
    generalize (specifier.toList.reverse.takeWhile (· != '@')).reverse = version at parts numbered named
    generalize specifier.toList.take (specifier.toList.length - version.length - 1) = name at parts named
    have given : (String.ofList version).isEmpty = false := by
      simpa [String.isEmpty_iff] using numbered
    simp only [plannerPackageSpecifierFromPackage, Bool.false_and, Bool.false_eq_true, if_false, given]
    apply String.toList_inj.mp
    simp [parts]

/-- What a request asks for and its plugin reports missing, or no plugin is asked about. -/
def MissingWhenPlanned (env : PlannerEnv) (request : Request) (package : Package) : Prop :=
  request.packages = [] ∨ env.gatewayExists request.system = true ∨ env.pluginLoads request.system = false ∨
    package ∈ env.getMissingPackages request.system
      (request.packages.map (plannerMakeRequestedPackage request (env.resolvePluginName request.system)))

/-- A package that is missing when it is planned is still requested behind the filter. -/
theorem exists_filtered_of_missing {requests : List Request} {request : Request}
    (listed : request ∈ requests) {package : Package} (requested : package ∈ requestedPackages env request)
    (honest : ∀ system packages, (env.getMissingPackages system packages).Sublist packages)
    (missing : MissingWhenPlanned env request package) :
    ∃ filtered ∈ filterRequestedPackages env requests, filtered.action = request.action ∧
      package ∈ requestedPackages env filtered := by
  have kept : filterRequest env request = some request → ∃ filtered ∈ filterRequestedPackages env requests,
      filtered.action = request.action ∧ package ∈ requestedPackages env filtered :=
    fun same => ⟨request, List.mem_filterMap.mpr ⟨request, listed, same⟩, rfl, requested⟩
  by_cases unfiltered : request.action ≠ .install ∨ request.packages = []
  · apply kept
    rw [filterRequest, if_pos (by simpa using unfiltered)]
  by_cases gateway : env.gatewayExists request.system = true
  · apply kept
    rw [filterRequest, if_neg (by simpa using unfiltered), if_pos gateway]
  by_cases loads : env.pluginLoads request.system = false
  · apply kept
    rw [filterRequest, if_neg (by simpa using unfiltered), if_neg gateway, if_pos (by simp [loads])]
  have reported : package ∈ env.getMissingPackages request.system
      (request.packages.map (plannerMakeRequestedPackage request (env.resolvePluginName request.system))) := by
    rcases missing with empty | other | unloaded | reported
    · exact absurd (Or.inr empty) unfiltered
    · exact absurd other gateway
    · exact absurd unloaded loads
    · exact reported
  refine ⟨plannerFilterRequestToMissingPackages request (env.getMissingPackages request.system
      (request.packages.map (plannerMakeRequestedPackage request (env.resolvePluginName request.system)))),
    List.mem_filterMap.mpr ⟨request, listed, ?_⟩, rfl, ?_⟩
  · rw [filterRequest, if_neg (by simpa using unfiltered), if_neg gateway, if_neg (by simpa using loads),
      plannerFilterInstallRequest, if_neg (by simpa using List.ne_nil_of_mem reported)]
  · have asked := (honest _ _).subset reported
    obtain ⟨specifier, _, rfl⟩ := List.mem_map.mp asked
    have some : ((plannerFilterRequestToMissingPackages request (env.getMissingPackages request.system
        (request.packages.map (plannerMakeRequestedPackage request
          (env.resolvePluginName request.system))))).packages.isEmpty) = false := by
      simpa [plannerFilterRequestToMissingPackages] using List.ne_nil_of_mem reported
    simp only [requestedPackages, some, Bool.false_eq_true, if_false]
    refine List.mem_map.mpr ⟨specifier, List.mem_map.mpr ⟨_, reported, ?_⟩, rfl⟩
    exact plannerPackageSpecifierFromPackage_requested _ _ _

end RoundTrip

section Direct

variable {env : PlannerEnv}

/-- The package stands in the graph as a direct request. -/
def DirectlyIn (graph : Graph) (package : Package) : Prop :=
  ∃ other ∈ graph.packages, plannerSamePackage other package = true ∧ other.directRequest = true

theorem directlyIn_vertex {graph : Graph} {package added : Package} (inside : DirectlyIn graph package) :
    DirectlyIn (findOrAddPackageVertex graph added).1 package := by
  obtain ⟨other, member, same, direct⟩ := inside
  unfold DirectlyIn
  rw [findOrAddPackageVertex_packages]
  split
  · rename_i vertex _
    obtain ⟨index, found⟩ := List.mem_iff_getElem?.mp member
    by_cases here : vertex = index
    · refine ⟨{ other with directRequest := other.directRequest || added.directRequest },
        List.mem_iff_getElem?.mpr ⟨index, ?_⟩, same, by simp [direct]⟩
      simp [here, found]
    · refine ⟨other, List.mem_iff_getElem?.mpr ⟨index, ?_⟩, same, direct⟩
      simp [here, found]
  · exact ⟨other, List.mem_append_left _ member, same, direct⟩

theorem directlyIn_added (graph : Graph) {package : Package} (direct : package.directRequest = true) :
    DirectlyIn (findOrAddPackageVertex graph package).1 package := by
  unfold DirectlyIn
  rw [findOrAddPackageVertex_packages]
  split
  · rename_i vertex found
    obtain ⟨bound, same, _⟩ := List.findIdx?_eq_some_iff_getElem.mp found
    refine ⟨{ graph.packages[vertex] with
        directRequest := graph.packages[vertex].directRequest || package.directRequest },
      List.mem_iff_getElem?.mpr ⟨vertex, ?_⟩, same, by simp [direct]⟩
    simp [bound]
  · exact ⟨package, by simp, plannerSamePackage_refl package, direct⟩

theorem kept_directlyIn (env : PlannerEnv) (package : Package) :
    Kept env (fun _ => True) fun graph => DirectlyIn graph package where
  vertex := fun _ _ _ inside => directlyIn_vertex inside
  edge := by
    intro graph source target inside
    unfold DirectlyIn
    rw [addEdge_packages]
    exact inside
  dependency := fun _ _ _ _ => trivial

/-- Every directly requested package ends up in the graph as a direct request. -/
theorem directlyIn_of_requested {entries : List (Package × Bool)} {graph after : Graph}
    {entry : Package × Bool} (member : entry ∈ entries) (direct : entry.1.directRequest = true)
    (built : addAllRequested env graph entries = some after) : DirectlyIn after entry.1 := by
  obtain ⟨front, back, rfl⟩ := List.append_of_mem member
  simp only [addAllRequested, List.foldlM_append, List.foldlM_cons, Option.bind_eq_bind,
    Option.bind_eq_some_iff] at built
  obtain ⟨reached, _, next, added, rest⟩ := built
  have kept := kept_directlyIn env entry.1
  have entered := kept.addRequested trivial (directlyIn_added reached direct) added
  exact kept.addAllRequested (fun _ _ => trivial) entered rest

theorem requestedPackages_direct {request : Request} {package : Package}
    (member : package ∈ requestedPackages env request) : package.directRequest = true := by
  simp only [requestedPackages] at member
  split at member
  · split at member
    · rw [List.mem_singleton.mp member]
      rfl
    · simp at member
  · obtain ⟨specifier, _, rfl⟩ := List.mem_map.mp member
    simp only [plannerMakeRequestedPackage]
    split <;> rfl

end Direct

end ReqPack.Planner
