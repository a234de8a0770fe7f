import ReqPack.Executor.Outcome
import ReqPack.Executor.Ownership
import ReqPack.Executor.Stages

/-! # Calls that remove nothing

When no package of the graph is to be removed, the owners that are merged behind
the main pass are the last thing a call writes into the installed state.
-/

namespace ReqPack.Executor

open ReqPack.Data ReqPack.Core ReqPack.Scheduler

variable {σ : Type} {host : Host σ} {config : ExecutionConfig}

section Calls

variable {inputAlreadyFiltered : Bool} {graph : Graph} {script : ExecuteScript} {world : World σ}
  {result : ExecuteResult σ}

/-- A record of the main pass speaks of a package that was planned. -/
theorem exists_planned_of_record (honest : Honest host)
    (done : execute host config inputAlreadyFiltered graph script world = some result)
    {record : TransactionRecord} (member : record ∈ result.records) :
    ∃ package ∈ collectPackages result.taskGroups, matchesRecord record package = true := by
  rcases execute_cases done with ⟨_, ⟨_, none⟩, _⟩ | ⟨recovered, _, executed⟩
  · simp [none] at member
  obtain ⟨_, groups, ⟨_, _, none, _⟩ | ⟨opened, run, created, ran, concluded⟩⟩ := executeGraph_cases executed
  · simp [ExecuteResult.allRecords] at none
    simp [none.1] at member
  have main := mainPass_of_stages created ran concluded
  obtain ⟨group, planned, before, records, after, execution, present⟩ := main.record_execution member
  obtain ⟨package, listed, status, message, rfl, _⟩ := execution.record_of present
  refine ⟨package, List.mem_flatMap.mpr ⟨group, planned, listed⟩, ?_⟩
  rw [groups] at planned
  obtain ⟨original, known, ⟨packages, system⟩, action⟩ := exists_of_sublistForall₂
    (plannedGroups_cutDown honest config inputAlreadyFiltered graph script.sorted recovered) planned
  have coherent := createFromGraph_coherent _ _ _ original known
  have inside := packages.subset listed
  simp [matchesRecord, makeRecord, coherent.action package inside, coherent.system package inside, system, action]

/-- Behind the main pass of a call that removes nothing, the history is recorded, owners are
merged, and nothing else. -/
theorem execute_installs (kept : ∀ package ∈ graph.packages, isRemoveAction package.action = false)
    (done : execute host config inputAlreadyFiltered graph script world = some result)
    (reached : result.ok = true ∨ result.records ≠ []) :
    ∃ executed : World σ, executed.installed = world.installed ∧
      result.world.installed = (reconcileInstalledOwnership host config result.allTaskGroups
        result.taskGroups result.records (recordHistory host config result.records executed)).installed := by
  rcases execute_cases done with ⟨_, ⟨failed, none⟩, _⟩ | ⟨recovered, entered, executed⟩
  · simp [failed, none] at reached
  obtain ⟨_, groups, ⟨failed, _, none, _⟩ | ⟨opened, run, created, ran, concluded⟩⟩ :=
    executeGraph_cases executed
  · simp [ExecuteResult.allRecords] at none
    simp [failed, none.1] at reached
  have main := mainPass_of_stages created ran concluded
  obtain ⟨cleaned, removed, records, _, _, _, left⟩ := concludeRun_cases concluded
  have idle : tracksInstalled config = true → run.records.filter isSuccessfulRemoval = [] := by
    intro _
    rw [List.filter_eq_nil_iff]
    intro record member removal
    rw [← main.records] at member
    obtain ⟨group, planned, _, _, _, execution, present⟩ := main.record_execution member
    obtain ⟨package, _, status, message, rfl, _⟩ := execution.record_of present
    rw [groups] at planned
    have still := @plannedGroup_action σ host config (isRemoveAction · = false) rfl _ _ _ _ kept _ planned
    simp [isSuccessfulRemoval, makeRecord, still] at removal
  rw [subtractDependencyOwnership_idle idle] at removed
  obtain ⟨_, rfl⟩ := removeOrphanedDependencies_idle idle removed
  have before := (recoveredWorld_leavesInstalled entered).trans (mainPass_leavesInstalled created ran)
  refine ⟨run.world, before.installed, ?_⟩
  rw [left, records]
  split
  · rw [finishTransactions_calls]
  · rfl

theorem mem_graph_of_planned (honest : Honest host) (ordered : SortedBy graph script.sorted)
    (done : executeGraph host config inputAlreadyFiltered graph script world = some result)
    {package : Package} (planned : package ∈ collectPackages result.taskGroups) :
    package ∈ graph.packages := by
  obtain ⟨group, member, listed⟩ := List.mem_flatMap.mp planned
  rw [(executeGraph_cases done).2.1] at member
  obtain ⟨original, known, packages, _⟩ := exists_of_sublistForall₂
    (plannedGroups_leftOf honest config inputAlreadyFiltered graph script.sorted world) member
  exact (createFromGraph_packages_perm ordered).mem_iff.mp
    (List.mem_flatMap.mpr ⟨original, known, packages.subset listed⟩)

/-- A direct request of a call that succeeded is among the packages whose owners are
written: it was run, or it is counted as satisfied. -/
theorem mem_reconciledPackages_of_direct (completable : Completable host config graph script.sorted)
    (done : executeGraph host config inputAlreadyFiltered graph script world = some result)
    (ok : result.ok = true) {package : Package} (member : package ∈ graph.packages)
    (installs : isInstallLikeAction package.action = true) (direct : package.directRequest = true) :
    package ∈ reconciledPackages result.allTaskGroups result.taskGroups result.records := by
  have unique : ∀ other ∈ collectPackages result.taskGroups,
      packageIdentityKey other = packageIdentityKey package → other = package := by
    intro other planned same
    exact List.inj_on_of_nodup_map completable.distinct
      (mem_graph_of_planned completable.honest completable.ordered done planned) member same
  by_cases planned : package ∈ collectPackages result.taskGroups
  · obtain ⟨group, inPlan, listed⟩ := List.mem_flatMap.mp planned
    obtain ⟨runId, _, _, _, message, _, _, _, _, recorded⟩ := completable.executed done ok inPlan listed
    have planning := inPlan
    rw [(executeGraph_cases done).2.1] at planning
    obtain ⟨original, known, ⟨packages, system⟩, action⟩ := exists_of_sublistForall₂
      (plannedGroups_cutDown completable.honest config inputAlreadyFiltered graph script.sorted world) planning
    have coherent := createFromGraph_coherent _ _ _ original known
    have inside := packages.subset listed
    have sameAction : package.action = group.action := (coherent.action package inside).trans action.symm
    have sameSystem : package.system = group.system := (coherent.system package inside).trans system.symm
    have named : matchesRecord (makeRecord group runId .success message package) package = true := by
      simp [matchesRecord, makeRecord, sameAction, sameSystem]
    obtain ⟨chosen, found⟩ := Option.isSome_iff_exists.mp (List.find?_isSome.mpr ⟨package, planned, named⟩)
    have agrees := List.find?_some found
    simp only [matchesRecord, makeRecord, Bool.and_eq_true, beq_iff_eq] at agrees
    have same : chosen = package := by
      apply unique chosen (List.mem_of_find?_eq_some found)
      simp only [packageIdentityKey, agrees.1.1.2, agrees.1.2, agrees.2, sameSystem]
    rw [same] at found
    refine List.mem_append_left _ (List.mem_filterMap.mpr ⟨_, List.mem_filter.mpr ⟨recorded, ?_⟩, found⟩)
    simp only [makeRecord, ← sameAction, installs]
    rfl
  · refine List.mem_append_right _ (List.mem_filter.mpr ⟨?_, ?_⟩)
    · rw [(executeGraph_cases done).1]
      exact (createFromGraph_packages_perm completable.ordered).mem_iff.mpr member
    · have unplanned : ((collectPackages result.taskGroups).any fun candidate =>
          samePackage candidate package) = false := by
        rw [List.any_eq_false]
        intro candidate inPlan same
        rw [samePackage_eq_plannerSamePackage] at same
        exact planned (unique candidate inPlan (packageIdentityKey_congr same) ▸ inPlan)
      simp [direct, installs, unplanned]

/-- After a call that succeeded, the entry of every package that was requested directly is
owned by the request. -/
theorem execute_owns_request (completable : Completable host config graph script.sorted)
    (tracked : tracksInstalled config = true) (distinct : world.installed.KeysDistinct)
    (installs : ∀ package ∈ graph.packages, package.action = .install ∨ package.action = .ensure)
    (done : execute host config inputAlreadyFiltered graph script world = some result)
    (ok : result.ok = true) {package : Package} (member : package ∈ graph.packages)
    (direct : package.directRequest = true) :
    result.world.installed.Owned package (installedRootOwnerId package) := by
  have installing : ∀ package ∈ graph.packages, isInstallLikeAction package.action = true ∧
      isRemoveAction package.action = false := by
    intro package listed
    rcases installs package listed with install | ensure
    · rw [install]
      exact ⟨rfl, rfl⟩
    · rw [ensure]
      exact ⟨rfl, rfl⟩
  obtain ⟨executed, same, left⟩ := execute_installs (fun package listed => (installing package listed).2)
    done (Or.inl ok)
  have keys : (recordHistory host config result.records executed).installed.KeysDistinct := by
    apply recordHistory_distinct
    rw [same]
    exact distinct
  rcases execute_cases done with ⟨_, ⟨failed, _⟩, _⟩ | ⟨recovered, _, ran⟩
  · simp [ok] at failed
  rw [left]
  apply reconcileInstalledOwnership_owner tracked keys
    (mem_reconciledPackages_of_direct completable ran ok member (installing package member).1 direct)
  rw [ownersFor, mem_normalizeOwners]
  refine ⟨List.mem_append_left _ ?_, ?_⟩
  · simp [ownerIdsForPackage, direct]
  · simp [installedRootOwnerId, installedOwnerToken]

theorem recordHistory_nil (world : World σ) :
    (recordHistory host config [] world).installed = world.installed := by
  have nothing : refreshInstalledState host config [] (appendEvents config [] world) =
      ([], appendEvents config [] world) := by
    simp [refreshInstalledState, refreshTargets, stableSort]
  unfold recordHistory
  rw [nothing]
  unfold appendEvents
  split
  · split <;> rfl
  · rfl

/-- A call on a graph without packages leaves the installed state alone. -/
theorem execute_nothing (honest : Honest host) (ordered : SortedBy graph script.sorted)
    (empty : graph.packages = [])
    (done : execute host config inputAlreadyFiltered graph script world = some result)
    (ok : result.ok = true) : result.world.installed = world.installed := by
  obtain ⟨executed, same, left⟩ := execute_installs (by simp [empty]) done (Or.inl ok)
  rcases execute_cases done with ⟨_, ⟨failed, _⟩, _⟩ | ⟨recovered, _, ran⟩
  · simp [ok] at failed
  have none : result.records = [] := by
    rw [List.eq_nil_iff_forall_not_mem]
    intro record recorded
    obtain ⟨package, planned, _⟩ := exists_planned_of_record honest done recorded
    have member := mem_graph_of_planned honest ordered ran planned
    simp [empty] at member
  have packages : collectPackages result.allTaskGroups = [] := by
    have perm := @createFromGraph_packages_perm config.platform graph script.sorted ordered
    rw [empty, List.perm_nil] at perm
    rw [(executeGraph_cases ran).1]
    exact perm
  rw [left, none]
  cases tracked : tracksInstalled config with
  | false => simp [reconcileInstalledOwnership, tracked, recordHistory_nil, same]
  | true =>
      rw [reconcileInstalledOwnership_eq tracked]
      simp [reconciledPackages, packages, recordHistory_nil, same]

end Calls

end ReqPack.Executor
