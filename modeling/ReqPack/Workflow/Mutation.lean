import Mathlib.Algebra.GroupWithZero.Nat
import ReqPack.Planner.Plan
import ReqPack.Executor.Protection
import ReqPack.Workflow.Requirements

/-! # Requests of the dispatcher

`MutationWorkflow`: a request is planned, and either nothing is left to do, or the
graph goes through the validator to the executor.  A package that was asked for
explicitly is meant to stay when those that depend on it go.
-/

namespace ReqPack.Workflow

open ReqPack.Data ReqPack.Core ReqPack.Scheduler ReqPack.Planner ReqPack.Executor ReqPack.Executor.InstalledStore

/-- The services of the orchestrator. -/
structure Services (σ : Type) where
  env : PlannerEnv
  proxies : Proxies
  host : Host σ
  config : ExecutionConfig
  /-- `Validator::validate`; none when the graph is blocked -/
  validate : Graph → Option Graph

section Dispatcher

variable {σ : Type} (services : Services σ)

def requestsIncludeSystemScopedInstallOrEnsure (requests : List Request) : Bool :=
  requests.any fun request =>
    !(request.system.isEmpty || request.usesLocalTarget) &&
      (request.action == .install || request.action == .ensure) && request.packages.isEmpty

def countRequestedItems (requests : List Request) : Nat :=
  (requests.map fun request =>
    if request.action == .install || request.action == .ensure || request.action == .remove ||
        request.action == .update || request.action == .list || request.action == .outdated then
      if request.usesLocalTarget then 1 else request.packages.length
    else 0).sum

/-- `MutationWorkflow::runEmptyGraphInstallEnsure`: the exit code when nothing is left to do. -/
def runEmptyGraphInstallEnsure (action : ActionType) (graph : Graph) (requests : List Request)
    (requestedItemCount : Nat) (plugins : σ) : Option Nat :=
  if !graph.packages.isEmpty then none
  else if (requestedItemCount == 0 && !requestsIncludeSystemScopedInstallOrEnsure requests) ||
      (action != .install && action != .ensure) then none
  else if requests.all fun request => request.system.isEmpty ||
      services.host.hasPlugin plugins request.system || services.host.loadPlugin plugins request.system then
    some 0
  else some 1

/-- `MutationWorkflow::runValidatedExecute`. -/
def runValidatedExecute (graph : Graph) (script : ExecuteScript) (world : World σ) : Option (Nat × World σ) :=
  match services.validate graph with
  | none => some (1, world)
  | some validated =>
      (execute services.host services.config false validated script world).map fun result =>
        (if result.ok then 0 else 1, result.world)

/-- The part of the dispatcher behind the query workflows: exit code and world; none when
the executor does not return.  Without a graph there is nothing to validate. -/
def dispatch (requests : List Request) (script : ExecuteScript) (world : World σ) : Option (Nat × World σ) :=
  match plan services.env services.proxies requests with
  | none => some (1, world)
  | some graph =>
      match runEmptyGraphInstallEnsure services ((requests.head?.map (·.action)).getD .unknown) graph requests
          (countRequestedItems requests) world.plugins with
      | some exitCode => some (exitCode, world)
      | none => runValidatedExecute services graph script world

end Dispatcher

section Protection

variable {σ : Type} {services : Services σ} {files : BundleFiles} {requests expanded : List Request}
  {script : ExecuteScript} {world after : World σ}

/-- A request that is accepted ends with nothing to do, or with a call that succeeded. -/
theorem dispatch_cases (validates : ∀ graph validated, services.validate graph = some validated →
      validated = graph)
    (done : dispatch services requests script world = some (0, after)) :
    ∃ graph, plan services.env services.proxies requests = some graph ∧
      ((graph.packages = [] ∧ after = world) ∨
        ∃ result, execute services.host services.config false graph script world = some result ∧
          result.ok = true ∧ after = result.world) := by
  unfold dispatch at done
  cases planned : plan services.env services.proxies requests with
  | none => simp [planned] at done
  | some graph =>
      refine ⟨graph, rfl, ?_⟩
      simp only [planned] at done
      split at done
      · rename_i exitCode empty
        simp only [Option.some.injEq, Prod.mk.injEq] at done
        refine Or.inl ⟨?_, done.2.symm⟩
        unfold runEmptyGraphInstallEnsure at empty
        split at empty
        · cases empty
        · rename_i nothing
          simpa using nothing
      · unfold runValidatedExecute at done
        split at done
        · simp at done
        · rename_i validated accepted
          rw [validates graph validated accepted, Option.map_eq_some_iff] at done
          obtain ⟨result, executed, left⟩ := done
          simp only [Prod.mk.injEq] at left
          refine Or.inr ⟨result, executed, ?_, left.2.symm⟩
          by_contra failed
          simp [failed] at left

theorem filterRequestedPackages_action {env : PlannerEnv} {action : ActionType}
    (all : ∀ request ∈ expanded, request.action = action) :
    ∀ request ∈ filterRequestedPackages env expanded, request.action = action := by
  intro filtered member
  obtain ⟨request, listed, kept⟩ := List.mem_filterMap.mp member
  rw [← all request listed]
  have unchanged : some request = some filtered → filtered.action = request.action := by
    intro same
    cases same
    rfl
  unfold filterRequest at kept
  split at kept
  · exact unchanged kept
  split at kept
  · exact unchanged kept
  split at kept
  · exact unchanged kept
  unfold plannerFilterInstallRequest at kept
  split at kept
  · cases kept
  · cases kept
    rfl

/-- Installations are planned from the requests that are left behind the filter. -/
theorem plan_of_installs {env : PlannerEnv} {proxies : Proxies} {graph : Graph}
    (resolved : resolveRequests proxies requests = .ok expanded)
    (installs : ∀ request ∈ expanded, request.action = .install)
    (planned : plan env proxies requests = some graph) :
    addAllRequested env .empty (requestedEntries env (filterRequestedPackages env expanded)) = some graph := by
  have others : plannerContainsOnlyAction (filterRequestedPackages env expanded) .ensure = false := by
    have actions := @filterRequestedPackages_action expanded env _ installs
    cases filtered : filterRequestedPackages env expanded with
    | nil => rfl
    | cons first rest =>
        have action := actions first (by simp [filtered])
        simp [plannerContainsOnlyAction, action]
  unfold plan at planned
  simp only [resolved, others, Bool.false_eq_true, if_false] at planned
  exact planned

/-- The package is missing when it is planned; or it was asked for before, its plugin goes
on listing it, and nothing else of its name is planned. -/
def Covered (services : Services σ) (requests : List Request) (world : World σ) (request : Request)
    (package : Package) : Prop :=
  MissingWhenPlanned services.env request package ∨
    ∃ entry, findEntry world.installed package.system package.name package.version = some entry ∧
      installedRootOwnerId package ∈ entry.owners ∧
      (∀ plugins, (entry.name, entry.version) ∈ (services.host.listPackages package.system plugins).1) ∧
      ∀ graph, plan services.env services.proxies requests = some graph →
        ∀ other ∈ graph.packages, ¬(other.system = package.system ∧ other.name = package.name)

/-- A package that is missing when it is planned stands in the graph as a direct request. -/
theorem directlyIn_of_missing {env : PlannerEnv} {graph : Graph} (answers : HonestAnswers env)
    (built : addAllRequested env .empty (requestedEntries env (filterRequestedPackages env expanded)) =
      some graph)
    {request : Request} (listed : request ∈ expanded) {package : Package}
    (requested : package ∈ requestedPackages env request) (missing : MissingWhenPlanned env request package) :
    DirectlyIn graph package := by
  obtain ⟨filtered, kept, _, asked⟩ := exists_filtered_of_missing listed requested answers missing
  have entry : (package, includeDependencies env filtered) ∈
      requestedEntries env (filterRequestedPackages env expanded) :=
    List.mem_flatMap.mpr ⟨filtered, kept, List.mem_map.mpr ⟨package, asked, rfl⟩⟩
  exact directlyIn_of_requested entry (requestedPackages_direct asked) built

theorem Owned.of_sameKey {store : InstalledStore} {left right : Package} {owner : String}
    (same : SameKey left right) (owned : Owned store left owner) : Owned store right owner := by
  obtain ⟨system, name, version⟩ := same
  unfold Owned at owned ⊢
  rwa [← system, ← name, ← version]

theorem installedRootOwnerId_congr {left right : Package} (same : SameKey left right) :
    installedRootOwnerId left = installedRootOwnerId right := by
  simp only [installedRootOwnerId, same.1, same.2.1]

/-- A call that succeeded on the plan protects what is covered. -/
theorem owned_of_covered (reads : services.env.bundles = files.bundles) (answers : HonestAnswers services.env)
    (installs : ∀ request ∈ expanded, request.action = .install)
    (tracked : tracksInstalled services.config = true) (distinct : KeysDistinct world.installed) {graph : Graph}
    (planned : plan services.env services.proxies requests = some graph)
    (built : addAllRequested services.env .empty (requestedEntries services.env
      (filterRequestedPackages services.env expanded)) = some graph)
    (completable : Completable services.host services.config graph script.sorted) {result : ExecuteResult σ}
    (done : execute services.host services.config false graph script world = some result)
    (ok : result.ok = true) {request : Request} (listed : request ∈ expanded) {package : Package}
    (requested : package ∈ requestedPackages services.env request)
    (covered : Covered services requests world request package) :
    Owned result.world.installed package (installedRootOwnerId package) := by
  have actions : ∀ package ∈ graph.packages, package.action = .install ∨ package.action = .ensure := by
    refine plan_installs reads answers (fun entry member => ?_) built
    obtain ⟨filtered, kept, member⟩ := List.mem_flatMap.mp member
    obtain ⟨asked, made, rfl⟩ := List.mem_map.mp member
    exact Or.inl ((requestedPackages_action made).trans (filterRequestedPackages_action installs filtered kept))
  rcases covered with missing | ⟨entry, found, rooted, goesOn, unplanned⟩
  · obtain ⟨other, member, same, direct⟩ := directlyIn_of_missing answers built listed requested missing
    have key := sameKey_of_identity (plannerSamePackage_iff_identity.1 same)
    have owned := execute_owns_request completable tracked distinct actions done ok member direct
    rw [installedRootOwnerId_congr key] at owned
    exact Owned.of_sameKey key owned
  · refine execute_keeps_owner completable.honest completable.ordered tracked distinct (fun other member => ?_)
      done ok found rooted (unplanned graph planned) goesOn
    rcases actions other member with install | ensure
    · rw [install]
      rfl
    · rw [ensure]
      rfl

end Protection

section Examples

/-- The apt plugin reports a package missing that it does not list. -/
def aptMissing (listed : List String) (packages : List Package) : List Package :=
  packages.filter fun package => !listed.contains package.name

/-- An apt plugin that lists these packages and installs what it is asked to install. -/
def aptServices (listed : List String) : Services (List String) where
  env :=
    { resolvePluginName := id
      gatewayExists := fun _ => false
      bundles := []
      pluginLoads := fun _ => true
      getMissingPackages := fun _ => aptMissing listed
      requirementsProvisioned := fun _ => false }
  proxies :=
    { enableProxyExpansion := false
      resolvePluginName := id
      loadPlugin := fun _ => true
      supportsProxyResolution := fun _ => false
      resolveProxyRequest := fun _ _ => none
      targets := fun _ => [] }
  host :=
    { resolvePluginName := id
      isGatewaySystem := fun _ => false
      executeGatewayRequest := fun _ _ _ plugins => ([], plugins)
      hasPlugin := fun _ _ => true
      loadPlugin := fun _ _ => true
      supportsPack := fun _ _ => false
      perform := fun call plugins => (true, plugins ++ call.packages.map (·.name))
      getMissingPackages := fun _ packages plugins => (aptMissing plugins packages, plugins)
      takeRecentEvents := fun _ plugins => ([], plugins)
      listPackages := fun _ plugins => (plugins.map fun name => (name, "1"), plugins)
      bundleDependencies := fun _ _ => none
      getRequirements := fun _ _ => []
      now := fun _ => "t"
      actionCode := fun _ => 0 }
  config := {}
  validate := some

def libsslRequest : List Request := [{ action := .install, system := "apt", packages := ["libssl"] }]

/-- The library is there because curl needs it. -/
def libsslEntry : InstalledEntry :=
  { system := "apt", name := "libssl", version := "1", installMethod := "dependency",
    owners := [installedPackageOwnerId { system := "apt", name := "curl" }] }

def libsslInstalled : World (List String) where
  plugins := ["libssl"]
  installed := [libsslEntry]

def libssl : Package := { action := .install, system := "apt", name := "libssl", directRequest := true }

end Examples

end ReqPack.Workflow
