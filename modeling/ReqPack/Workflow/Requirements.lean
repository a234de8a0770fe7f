import ReqPack.Planner.Acyclic
import ReqPack.Planner.Bundle
import ReqPack.Planner.Contents
import ReqPack.Executor.Installs

/-! # What a plugin requires, for the planner and for the executor

The planner links a package to the dependency packages and the project packages of
its bundle, the executor gives the entries of the dependency packages alone an
owner.  The two agree exactly where every project package that is missing is named
by a dependency specification as well.
-/

namespace ReqPack.Workflow

open ReqPack.Data ReqPack.Core ReqPack.Scheduler ReqPack.Planner ReqPack.Executor

variable {σ : Type}

/-- Planner and executor use the same registry, the same gateway and the same bundles. -/
structure SharedRegistry (files : BundleFiles) (env : PlannerEnv) (host : Host σ) : Prop where
  bundles : env.bundles = files.bundles
  resolve : host.resolvePluginName = env.resolvePluginName
  gateway : host.isGatewaySystem = env.gatewayExists
  dependencies : ∀ plugins system, host.bundleDependencies plugins system =
    (env.findInstalled system).map (·.dependencyPackages)

/-- A plugin names missing packages among those the planner asks about. -/
def HonestAnswers (env : PlannerEnv) : Prop :=
  ∀ system packages, (env.getMissingPackages system packages).Sublist packages

/-- The same system, name and version. -/
def SameKey (left right : Package) : Prop :=
  left.system = right.system ∧ left.name = right.name ∧ left.version = right.version

theorem SameKey.symm {left right : Package} (same : SameKey left right) : SameKey right left :=
  ⟨same.1.symm, same.2.1.symm, same.2.2.symm⟩

theorem SameKey.trans {left middle right : Package} (first : SameKey left middle)
    (second : SameKey middle right) : SameKey left right :=
  ⟨first.1.trans second.1, first.2.1.trans second.2.1, first.2.2.trans second.2.2⟩

theorem sameKey_of_identity {left right : Package} (same : identity left = identity right) :
    SameKey left right := by
  simp only [identity, Prod.mk.injEq] at same
  exact ⟨same.2.1, same.2.2.1, same.2.2.2.1⟩

section Lists

variable {files : BundleFiles} {env : PlannerEnv} {host : Host σ} {current dependency : Package}

theorem mem_filterMissingDependencies (honest : HonestAnswers env) {dependencies : List Package}
    (member : dependency ∈ filterMissingDependencies env dependencies) : dependency ∈ dependencies := by
  simp only [filterMissingDependencies, List.mem_append] at member
  rcases member with assumed | asked
  · exact List.mem_of_mem_filter assumed
  · obtain ⟨system, _, reported⟩ := List.mem_flatMap.mp asked
    exact List.mem_of_mem_filter (List.mem_of_mem_filter ((honest _ _).subset reported))

/-- A missing dependency stems from one of the two lists of the bundle. -/
theorem exists_of_missingDependencies (honest : HonestAnswers env)
    (member : dependency ∈ missingDependencies env current) :
    ∃ bundle, env.findInstalled current.system = some bundle ∧
      ∃ package ∈ bundle.dependencyPackages ++ bundle.projectPackages,
        dependency = dependencyOf env current package := by
  unfold missingDependencies at member
  split at member
  · simp at member
  · rename_i bundle found
    have listed := mem_filterMissingDependencies honest member
    rw [← List.map_append, List.mem_map] at listed
    obtain ⟨package, inside, same⟩ := listed
    exact ⟨bundle, found, package, inside, same.symm⟩

theorem dependencyOf_key (env : PlannerEnv) (current package : Package) :
    SameKey (dependencyOf env current package)
      (resolveDependencySystem env (plannerNormalizeDependency package current.system)) := by
  simp only [dependencyOf]
  split
  · unfold propagateInternalEnsureOrderFlag
    split <;> exact ⟨rfl, rfl, rfl⟩
  · exact ⟨rfl, rfl, rfl⟩

/-- The planner's form of a dependency and the executor's have the same key. -/
theorem normalizeRequirement_key (shared : SharedRegistry files env host) (named : current.system ≠ "")
    (package : Package) :
    SameKey (normalizeRequirement host current.system package) (dependencyOf env current package) := by
  refine SameKey.trans ?_ (dependencyOf_key env current package).symm
  have filed : current.system.isEmpty = false := by simpa [String.isEmpty_iff] using named
  simp only [normalizeRequirement, resolveDependencySystem, plannerNormalizeDependency, shared.resolve]
  repeat' split
  all_goals simp_all [SameKey]

theorem normalizedRequirements_of_bundle (shared : SharedRegistry files env host) (plugins : σ)
    (named : current.system ≠ "") (plugin : env.gatewayExists current.system = false)
    {bundle : PluginBundle} (found : env.findInstalled current.system = some bundle) :
    normalizedRequirements host plugins current =
      bundle.dependencyPackages.map (normalizeRequirement host current.system) := by
  have filed : current.system.isEmpty = false := by simpa [String.isEmpty_iff] using named
  simp [normalizedRequirements, filed, shared.gateway, plugin, shared.dependencies, found]

/-- The executor requires what a declared dependency of the bundle has the key of. -/
theorem required_iff_declared (shared : SharedRegistry files env host) (plugins : σ)
    (named : current.system ≠ "") (plugin : env.gatewayExists current.system = false)
    {bundle : PluginBundle} (found : env.findInstalled current.system = some bundle) :
    (∃ requirement ∈ normalizedRequirements host plugins current, SameKey requirement dependency) ↔
      ∃ declared ∈ bundle.dependencyPackages, SameKey (dependencyOf env current declared) dependency := by
  rw [normalizedRequirements_of_bundle shared plugins named plugin found]
  constructor
  · intro required
    obtain ⟨requirement, member, same⟩ := required
    obtain ⟨declared, listed, rfl⟩ := List.mem_map.mp member
    exact ⟨declared, listed, (normalizeRequirement_key shared named declared).symm.trans same⟩
  · intro required
    obtain ⟨declared, listed, same⟩ := required
    exact ⟨_, List.mem_map.mpr ⟨declared, listed, rfl⟩,
      (normalizeRequirement_key shared named declared).trans same⟩

end Lists

section Edges

variable {files : BundleFiles} {env : PlannerEnv} {host : Host σ} {entries : List (Package × Bool)}
  {graph : Graph}

/-- The planner goes on to the dependencies of this package. -/
def Expanded (env : PlannerEnv) (entries : List (Package × Bool)) (current : Package) : Prop :=
  ∃ entry ∈ entries, entry.2 = true ∧ ∃ activeSystems,
    Relation.ReflTransGen (CallStep env) (entry.1, []) (current, activeSystems) ∧
      current.system ∉ activeSystems ∧ env.gatewayExists current.system = false

/-- Every project package that is missing where its bundle is used is named by a
dependency specification of the bundle, too. -/
def ProjectPackagesDeclared (env : PlannerEnv) (entries : List (Package × Bool)) : Prop :=
  ∀ current, Expanded env entries current → ∀ bundle, env.findInstalled current.system = some bundle →
    ∀ package ∈ bundle.projectPackages,
      dependencyOf env current package ∈ missingDependencies env current →
      identity (dependencyOf env current package) ≠ identity current →
      ∃ declared ∈ bundle.dependencyPackages,
        SameKey (dependencyOf env current declared) (dependencyOf env current package)

theorem needs_iff {source target : Identity} :
    Needs env entries source target ↔ source ≠ target ∧ ∃ current, Expanded env entries current ∧
      ∃ dependency ∈ missingDependencies env current, identity dependency = source ∧ identity current = target := by
  constructor
  · intro needs
    obtain ⟨entry, listed, expanded, apart, ⟨current, activeSystems⟩, ⟨dependency, _⟩, path, step, sourceSame,
      targetSame⟩ := needs
    obtain ⟨inactive, plugin, missing, _⟩ := step
    exact ⟨apart, current, ⟨entry, listed, expanded, activeSystems, path, inactive, plugin⟩, dependency,
      missing, sourceSame, targetSame⟩
  · intro drawn
    obtain ⟨apart, current, ⟨entry, listed, expanded, activeSystems, path, inactive, plugin⟩, dependency,
      missing, sourceSame, targetSame⟩ := drawn
    exact ⟨entry, listed, expanded, apart, (current, activeSystems),
      (dependency, activeSystems ++ [current.system]), path, ⟨inactive, plugin, missing, rfl⟩, sourceSame,
      targetSame⟩

theorem identity_of_getElem? {vertex : Nat} {value : Identity}
    (found : (identities graph)[vertex]? = some value) : identity (graph.package vertex) = value := by
  simp only [identities, List.getElem?_map, Option.map_eq_some_iff] at found
  obtain ⟨package, listed, same⟩ := found
  rw [Graph.package, List.getD_eq_getElem?_getD, listed]
  exact same

/-- The edges of a plan that was built link the missing dependencies of expanded packages. -/
theorem hasEdge_iff (built : addAllRequested env .empty entries = some graph) {source target : Identity} :
    HasEdge graph source target ↔ Needs env entries source target := by
  obtain ⟨after, visited, added, grown⟩ := addAllRequested_spec env entries
    (show (identities .empty).Nodup by simp [identities, Graph.empty])
  cases Option.some.inj (built.symm.trans added)
  rw [grown.edges]
  simp [HasEdge, Graph.empty]

/-- Every dependency the plan links to a package is among its requirements. -/
def LinksRequired (host : Host σ) (graph : Graph) : Prop :=
  ∀ edge ∈ graph.edges, ∀ plugins, ∃ requirement ∈ normalizedRequirements host plugins (graph.package edge.2),
    SameKey requirement (graph.package edge.1)

theorem linksRequired_of_declared (shared : SharedRegistry files env host) (honest : HonestAnswers env)
    (built : addAllRequested env .empty entries = some graph)
    (declared : ProjectPackagesDeclared env entries) : LinksRequired host graph := by
  intro edge member plugins
  have bounds := graph.bounded edge member
  have drawn : HasEdge graph (identity (graph.package edge.1)) (identity (graph.package edge.2)) := by
    refine ⟨edge, member, ?_, ?_⟩
    · simp [identities, Graph.package, bounds.1]
    · simp [identities, Graph.package, bounds.2]
  obtain ⟨apart, current, expanded, dependency, missing, sourceSame, targetSame⟩ :=
    needs_iff.1 ((hasEdge_iff built).mp drawn)
  obtain ⟨bundle, found, package, listed, rfl⟩ := exists_of_missingDependencies honest missing
  obtain ⟨named, _⟩ := BundleFiles.of_findInstalled shared.bundles found
  obtain ⟨_, _, _, _, _, _, plugin⟩ := id expanded
  have inBundle : ∃ declared ∈ bundle.dependencyPackages,
      SameKey (dependencyOf env current declared) (dependencyOf env current package) := by
    rcases List.mem_append.mp listed with own | project
    · exact ⟨package, own, rfl, rfl, rfl⟩
    · exact declared current expanded bundle found package project missing
        (by rw [sourceSame, targetSame]; exact apart)
  obtain ⟨requirement, required, same⟩ :=
    (required_iff_declared shared plugins named plugin found).mpr inBundle
  rw [normalizedRequirements_congr (sameKey_of_identity targetSame).1] at required
  exact ⟨requirement, required, same.trans (sameKey_of_identity sourceSame)⟩

theorem declared_of_linksRequired [Nonempty σ] (shared : SharedRegistry files env host)
    (built : addAllRequested env .empty entries = some graph) (links : LinksRequired host graph) :
    ProjectPackagesDeclared env entries := by
  intro current expanded bundle found package project missing apart
  obtain ⟨plugins⟩ := ‹Nonempty σ›
  have drawn : HasEdge graph (identity (dependencyOf env current package)) (identity current) :=
    (hasEdge_iff built).mpr (needs_iff.2 ⟨apart, current, expanded, _, missing, rfl, rfl⟩)
  obtain ⟨edge, member, sourceAt, targetAt⟩ := drawn
  obtain ⟨requirement, required, same⟩ := links edge member plugins
  have targetSame := sameKey_of_identity (identity_of_getElem? targetAt)
  rw [normalizedRequirements_congr targetSame.1] at required
  obtain ⟨named, _⟩ := BundleFiles.of_findInstalled shared.bundles found
  obtain ⟨_, _, _, _, _, _, plugin⟩ := expanded
  exact (required_iff_declared shared plugins named plugin found).mp
    ⟨requirement, required, same.trans (sameKey_of_identity (identity_of_getElem? sourceAt))⟩

end Edges

section Owners

variable {files : BundleFiles} {env : PlannerEnv} {host : Host σ} {config : ExecutionConfig}
  {entries : List (Package × Bool)} {graph : Graph}

theorem findInstalledDependency_congr {left right : Package} (same : SameKey left right)
    (installedState : List InstalledEntry) :
    findInstalledDependency installedState left = findInstalledDependency installedState right := by
  simp only [findInstalledDependency, same.1, same.2.1, same.2.2]

/-- Every package of the plan was handed over and reported done. -/
def FullySuccessful (graph : Graph) (result : ExecuteResult σ) : Prop :=
  ∀ package ∈ graph.packages, ∃ record ∈ result.records, record.status = .success ∧
    matchesRecord record package = true

instance (graph : Graph) (result : ExecuteResult σ) : Decidable (FullySuccessful graph result) :=
  inferInstanceAs (Decidable (∀ package ∈ graph.packages, ∃ record ∈ result.records,
    record.status = .success ∧ matchesRecord record package = true))

/-- The entries of linked dependencies have the packages they are linked to as owners. -/
def LinksOwned (graph : Graph) (installed : InstalledStore) : Prop :=
  ∀ edge ∈ graph.edges, ∀ entry,
    findInstalledDependency installed.loadInstalledState (graph.package edge.1) = some entry →
      installedPackageOwnerId (graph.package edge.2) ∈ entry.owners

/-- Behind a removal no linked dependency has the removed package as its owner, and one
that has no owner left is queued for removal. -/
def LinksReleased (host : Host σ) (graph : Graph) (records : List TransactionRecord) (record : TransactionRecord)
    (plugins : σ) (installed : InstalledStore) : Prop :=
  ∀ edge ∈ graph.edges, record.system = (graph.package edge.2).system →
    record.packageName = (graph.package edge.2).name → ∀ entry,
      findInstalledDependency installed.loadInstalledState (graph.package edge.1) = some entry →
        installedPackageOwnerId (graph.package edge.2) ∉ entry.owners ∧
        (entry.owners = [] → ∃ queued ∈ orphanedPackages host plugins installed.loadInstalledState records,
          packageIdentityKey queued =
            packageIdentityKey { graph.package edge.1 with version := entry.version })

theorem mem_reconciledPackages {allTaskGroups taskGroups : List TaskGroup} {records : List TransactionRecord}
    {record : TransactionRecord} {package : Package} (member : record ∈ records)
    (success : record.status = .success) (installs : isInstallLikeAction record.action = true)
    (found : (collectPackages taskGroups).find? (matchesRecord record) = some package) :
    package ∈ reconciledPackages allTaskGroups taskGroups records := by
  refine List.mem_append_left _ (List.mem_filterMap.mpr ⟨record, List.mem_filter.mpr ⟨member, ?_⟩, found⟩)
  simp [success, installs]

theorem matchesRecord_iff {record : TransactionRecord} {package : Package} :
    matchesRecord record package = true ↔ package.action = record.action ∧ package.system = record.system ∧
      package.name = record.packageName ∧ package.version = record.packageVersion := by
  simp [matchesRecord, and_assoc]

/-- After a run of the whole plan every linked dependency is owned. -/
theorem linksOwned_of_linksRequired (honest : Honest host)
    (installs : ∀ package ∈ graph.packages, package.action = .install ∨ package.action = .ensure)
    (links : LinksRequired host graph) (tracked : tracksInstalled config = true)
    {inputAlreadyFiltered : Bool} {script : ExecuteScript} {world : World σ} {result : ExecuteResult σ}
    (distinct : world.installed.KeysDistinct)
    (done : execute host config inputAlreadyFiltered graph script world = some result)
    (successful : FullySuccessful graph result) : LinksOwned graph result.world.installed := by
  intro edge member entry found
  have bounds := graph.bounded edge member
  obtain ⟨record, recorded, success, agrees⟩ := successful _ (graph.package_mem bounds.2)
  have kept : ∀ package ∈ graph.packages, isRemoveAction package.action = false := by
    intro package listed
    rcases installs package listed with install | ensure
    · rw [install]
      rfl
    · rw [ensure]
      rfl
  obtain ⟨executed, unchanged, left⟩ := execute_installs kept done (Or.inr (List.ne_nil_of_mem recorded))
  have keys : (recordHistory host config result.records executed).installed.KeysDistinct := by
    apply recordHistory_distinct
    rw [unchanged]
    exact distinct
  generalize recordHistory host config result.records executed = recordedWorld at keys left
  obtain ⟨planned, inPlan, matches'⟩ := exists_planned_of_record honest done recorded
  obtain ⟨chosen, chosenFound⟩ := Option.isSome_iff_exists.mp
    (List.find?_isSome.mpr ⟨planned, inPlan, matches'⟩)
  obtain ⟨_, chosenSystem, chosenName, _⟩ := matchesRecord_iff.1 (List.find?_some chosenFound)
  obtain ⟨targetAction, targetSystem, targetName, _⟩ := matchesRecord_iff.1 agrees
  have installed : isInstallLikeAction record.action = true := by
    rw [← targetAction]
    rcases installs _ (graph.package_mem bounds.2) with install | ensure
    · rw [install]
      rfl
    · rw [ensure]
      rfl
  have sameSystem := chosenSystem.trans targetSystem.symm
  obtain ⟨requirement, required, same⟩ := links edge member recordedWorld.plugins
  rw [← normalizedRequirements_congr sameSystem] at required
  have reconciled : chosen ∈ reconciledPackages result.allTaskGroups result.taskGroups result.records :=
    mem_reconciledPackages recorded success installed chosenFound
  have owned := reconcileInstalledOwnership_requirement tracked keys reconciled required
  rw [← left, installedPackageOwnerId_congr sameSystem (chosenName.trans targetName.symm)] at owned
  rw [← findInstalledDependency_congr same] at found
  refine owned entry (findEntry_of_findInstalledDependency ?_ found)
  rw [left, reconcileInstalledOwnership_eq tracked]
  exact (foldl_mergeOwnership_grows _ _ recordedWorld keys).distinct keys

/-- Once the package it is linked to is removed, a dependency is released. -/
theorem linksReleased_of_linksRequired (links : LinksRequired host graph)
    (tracked : tracksInstalled config = true) {world : World σ} (distinct : world.installed.KeysDistinct)
    {records : List TransactionRecord} {record : TransactionRecord} (member : record ∈ records)
    (removal : isSuccessfulRemoval record = true) :
    LinksReleased host graph records record world.plugins
      (subtractDependencyOwnership host config records world).installed := by
  intro edge linked sameSystem sameName entry found
  obtain ⟨requirement, required, same⟩ := links edge linked world.plugins
  have removed : (removedPackage record).system = (graph.package edge.2).system := sameSystem
  rw [← normalizedRequirements_congr removed] at required
  have released := subtractDependencyOwnership_released tracked distinct member removal required
  rw [installedPackageOwnerId_congr removed sameName] at released
  rw [← findInstalledDependency_congr same] at found
  have keys : (subtractDependencyOwnership host config records world).installed.KeysDistinct :=
    subtractDependencyOwnership_distinct distinct records
  refine ⟨released entry (findEntry_of_findInstalledDependency keys found), fun free => ?_⟩
  obtain ⟨queued, listed, sameIdentity⟩ := orphanedPackages_of_released member removal required found free
  refine ⟨queued, listed, ?_⟩
  rw [sameIdentity]
  simp only [packageIdentityKey, same.1, same.2.1]

end Owners

section Agreement

variable {files : BundleFiles} {env : PlannerEnv} {host : Host σ} {entries : List (Package × Bool)}
  {graph : Graph}

/-- Planner and executor agree on the plan: its links are requirements, so that a run of
the whole plan makes the packages the owners of their dependencies, and their removal
releases the dependencies again. -/
structure AgreesOnRequirements (host : Host σ) (graph : Graph) : Prop where
  required : LinksRequired host graph
  owned : ∀ config inputAlreadyFiltered script (world : World σ) result, tracksInstalled config = true →
    world.installed.KeysDistinct →
    execute host config inputAlreadyFiltered graph script world = some result →
    FullySuccessful graph result → LinksOwned graph result.world.installed
  released : ∀ config (world : World σ) records, tracksInstalled config = true →
    world.installed.KeysDistinct → ∀ record ∈ records, isSuccessfulRemoval record = true →
    LinksReleased host graph records record world.plugins
      (subtractDependencyOwnership host config records world).installed

theorem missingDependencies_action (reads : env.bundles = files.bundles) (honest : HonestAnswers env)
    {current dependency : Package} (member : dependency ∈ missingDependencies env current) :
    dependency.action = .install ∨ dependency.action = .ensure := by
  obtain ⟨bundle, found, package, listed, rfl⟩ := exists_of_missingDependencies honest member
  have action := BundleFiles.package_action reads found listed
  have normalized : (resolveDependencySystem env
      (plannerNormalizeDependency package current.system)).action = .install := by
    simp only [resolveDependencySystem, plannerNormalizeDependency, action, reduceCtorEq, if_false]
    repeat' split
    all_goals simp [action]
  simp only [dependencyOf]
  split
  · right
    unfold propagateInternalEnsureOrderFlag
    split <;> rfl
  · exact Or.inl normalized

theorem plan_installs (reads : env.bundles = files.bundles) (honest : HonestAnswers env)
    (requested : ∀ entry ∈ entries, entry.1.action = .install ∨ entry.1.action = .ensure)
    (built : addAllRequested env .empty entries = some graph) :
    ∀ package ∈ graph.packages, package.action = .install ∨ package.action = .ensure := by
  have kept := @kept_of_packages env (fun package => package.action = .install ∨ package.action = .ensure)
    (fun _ _ holds => holds) (fun current _ dependency => missingDependencies_action reads honest)
  exact kept.addAllRequested requested (by simp [Graph.empty]) built

theorem agreesOnRequirements_iff [Nonempty σ] (shared : SharedRegistry files env host)
    (answers : HonestAnswers env) (honest : Honest host)
    (requested : ∀ entry ∈ entries, entry.1.action = .install ∨ entry.1.action = .ensure)
    (built : addAllRequested env .empty entries = some graph) :
    AgreesOnRequirements host graph ↔ ProjectPackagesDeclared env entries := by
  constructor
  · intro agrees
    exact declared_of_linksRequired shared built agrees.required
  · intro declared
    have links := linksRequired_of_declared shared answers built declared
    have installs := plan_installs shared.bundles answers requested built
    exact ⟨links, fun config inputAlreadyFiltered script world result tracked distinct done successful =>
        linksOwned_of_linksRequired honest installs links tracked distinct done successful,
      fun config world records tracked distinct record member removal =>
        linksReleased_of_linksRequired links tracked distinct member removal⟩

/-- Planner and executor agree on an installation or an ensure plan exactly when its
project packages are declared as dependencies. -/
theorem planner_and_executor_agree_iff [Nonempty σ] (shared : SharedRegistry files env host)
    (answers : HonestAnswers env) (honest : Honest host) :
    (∀ requests : List Request, (∀ request ∈ requests, request.action = .install) →
      ∃ graph, buildDag env requests = some graph ∧
        (AgreesOnRequirements host graph ↔ ProjectPackagesDeclared env (requestedEntries env requests))) ∧
    ∀ dependencies : List Package, (∀ dependency ∈ dependencies, dependency.action = .ensure) →
      ∃ graph, buildDependencyDag env dependencies = some graph ∧
        (AgreesOnRequirements host graph ↔
          ProjectPackagesDeclared env (dependencies.map fun dependency => (dependency, true))) := by
  have plans : ∀ entries, ∃ graph, addAllRequested env .empty entries = some graph := by
    intro entries
    obtain ⟨graph, _, built, _⟩ := addAllRequested_spec env entries
      (show (identities .empty).Nodup by simp [identities, Graph.empty])
    exact ⟨graph, built⟩
  refine ⟨fun requests installs => ?_, fun dependencies ensures => ?_⟩
  · obtain ⟨graph, built⟩ := plans (requestedEntries env requests)
    refine ⟨graph, built, agreesOnRequirements_iff shared answers honest (fun entry member => ?_) built⟩
    obtain ⟨request, listed, member⟩ := List.mem_flatMap.mp member
    obtain ⟨package, made, rfl⟩ := List.mem_map.mp member
    exact Or.inl ((requestedPackages_action made).trans (installs request listed))
  · obtain ⟨graph, built⟩ := plans (dependencies.map fun dependency => (dependency, true))
    refine ⟨graph, built, agreesOnRequirements_iff shared answers honest (fun entry member => ?_) built⟩
    obtain ⟨dependency, listed, rfl⟩ := List.mem_map.mp member
    exact Or.inr (ensures dependency listed)

end Agreement

section Examples

/-- The pip plugin names its interpreter as a dependency; the library stands among the
packages of the manifest itself. -/
def pipFiles (inlinePackageEntries : List ManifestEntry) : BundleFiles where
  manifests := [("pip", { dependencySpecs := ["apt:python"], inlinePackageEntries := inlinePackageEntries })]
  tryLoadPackages := fun _ _ => none
  named := by simp

def pipEnvironment (files : BundleFiles) : PlannerEnv where
  resolvePluginName := id
  gatewayExists := fun _ => false
  bundles := files.bundles
  pluginLoads := fun _ => true
  getMissingPackages := fun _ packages => packages
  requirementsProvisioned := fun _ => false

def pipExecutor (files : BundleFiles) : Host Unit :=
  { obligingHost fun _ => false with
    bundleDependencies := fun _ system => ((pipEnvironment files).findInstalled system).map (·.dependencyPackages)
    now := fun _ => "t" }

theorem pip_sharedRegistry (files : BundleFiles) :
    SharedRegistry files (pipEnvironment files) (pipExecutor files) :=
  ⟨rfl, rfl, rfl, fun _ _ => rfl⟩

theorem pip_honestAnswers (files : BundleFiles) : HonestAnswers (pipEnvironment files) :=
  fun _ packages => List.Sublist.refl packages

theorem pip_honest (files : BundleFiles) : Honest (pipExecutor files) :=
  fun _ packages _ => List.Sublist.refl packages

def numpyRequest : List Request := [{ action := .install, system := "pip", packages := ["numpy"] }]

theorem planner_and_executor_agree_pip :
    ∃ graph, buildDag (pipEnvironment (pipFiles [])) numpyRequest = some graph ∧ graph.edges = [(1, 0)] ∧
      AgreesOnRequirements (pipExecutor (pipFiles [])) graph := by
  have agree := planner_and_executor_agree_iff (pip_sharedRegistry (pipFiles [])) (pip_honestAnswers _)
    (pip_honest _)
  obtain ⟨graph, built, iff⟩ := agree.1 numpyRequest (by decide)
  have edges : (buildDag (pipEnvironment (pipFiles [])) numpyRequest).map (·.edges) = some [(1, 0)] := by decide
  rw [built, Option.map_some, Option.some.injEq] at edges
  refine ⟨graph, built, edges, iff.mpr fun current _ bundle found package project => ?_⟩
  obtain ⟨_, manifest, listed, rfl⟩ := BundleFiles.of_findInstalled (pip_sharedRegistry (pipFiles [])).bundles found
  simp only [pipFiles, List.mem_singleton, Prod.mk.injEq] at listed
  rw [listed.2] at project
  simp [BundleFiles.bundleOf, pluginBundleProjectPackages] at project

def libffi : ManifestEntry := { system := "apt", name := "libffi" }

/-- The library is installed with the module, but nobody owns it. -/
theorem project_package_unowned :
    ∃ graph result, buildDag (pipEnvironment (pipFiles [libffi])) numpyRequest = some graph ∧
      SortedBy graph [0, 2, 1] ∧
      execute (pipExecutor (pipFiles [libffi])) {} false graph { sorted := [0, 2, 1], orphanRounds := 1 }
        { plugins := () } = some result ∧
      FullySuccessful graph result ∧ ¬ LinksRequired (pipExecutor (pipFiles [libffi])) graph ∧
      ¬ LinksOwned graph result.world.installed := by
  have evaluated : (buildDag (pipEnvironment (pipFiles [libffi])) numpyRequest).any (fun graph =>
      (execute (pipExecutor (pipFiles [libffi])) {} false graph { sorted := [0, 2, 1], orphanRounds := 1 }
        { plugins := () }).any fun result : ExecuteResult Unit =>
          decide (([1, 2, 0].Perm (List.range graph.packages.length) ∧ ∀ edge ∈ graph.edges,
              List.idxOf edge.1 [1, 2, 0] < List.idxOf edge.2 [1, 2, 0]) ∧
            FullySuccessful graph result ∧ (2, 0) ∈ graph.edges ∧
            (∀ requirement ∈ normalizedRequirements (pipExecutor (pipFiles [libffi])) () (graph.package 0),
              requirement.name ≠ (graph.package 2).name) ∧
            (findInstalledDependency result.world.installed.loadInstalledState (graph.package 2)).any
              fun entry => entry.owners.isEmpty)) = true := by decide
  obtain ⟨graph, built, executed⟩ := (Option.any_eq_true _ _).mp evaluated
  obtain ⟨result, done, holds⟩ := (Option.any_eq_true _ _).mp executed
  obtain ⟨⟨listed, ordered⟩, successful, linked, unrequired, unowned⟩ := of_decide_eq_true holds
  obtain ⟨entry, found, free⟩ := (Option.any_eq_true _ _).mp unowned
  refine ⟨graph, result, built, ⟨listed, ordered⟩, done, successful, fun links => ?_, fun owned => ?_⟩
  · obtain ⟨requirement, required, same⟩ := links (2, 0) linked ()
    exact unrequired requirement required same.2.1
  · have owner := owned (2, 0) linked entry found
    simp [List.isEmpty_iff.mp free] at owner

end Examples

end ReqPack.Workflow
