import ReqPack.Executor.ExecuteCases

/-! # What a call reports about the packages of its graph

Success is read off the records that exist.  Every stage that can drop a package
is accounted for here: filtering, groups that are never started, and the pass that
adds items for packages that were satisfied already.
-/

namespace ReqPack.Executor

open ReqPack.Data ReqPack.Core ReqPack.Scheduler

section Names

/-- What an item of the JSON document says about which package it is for. -/
def recordName (record : TransactionRecord) : String × String := (record.system, record.packageName)

def packageName (package : Package) : String × String := (package.system, package.name)

def groupNames (group : TaskGroup) : List (String × String) :=
  group.packages.map fun package => (group.system, package.name)

variable {σ : Type} {host : Host σ} {config : ExecutionConfig} {runId : String} {group : TaskGroup}
  {world after : World σ} {records : List TransactionRecord}

theorem settleFailedCall_names (settled : settleFailedCall host group runId world = (records, after)) :
    (records.map recordName).Perm (groupNames group) := by
  simp only [settleFailedCall, splitByMissing, Prod.mk.injEq] at settled
  rw [← settled.1]
  split
  · generalize (host.getMissingPackages _ _ _).1 = missing
    have parts := List.filter_append_perm
      (fun package => !missing.any fun other => samePackage other package) group.packages
    simp only [Bool.not_not] at parts
    rw [groupNames, List.map_append, List.map_map, List.map_map]
    refine List.Perm.trans ?_ (parts.map _)
    rw [List.map_append]
    rfl
  · simp [groupNames, recordName, makeRecord, Function.comp_def]

/-- An executed group has one record for each of its packages. -/
theorem GroupExecution.names (execution : GroupExecution host config runId group world records after)
    (unskipped : softSkipsNix host config group = false) :
    (records.map recordName).Perm (groupNames group) := by
  have success : (buildSuccessRecords group runId).map recordName = groupNames group := by
    simp [buildSuccessRecords, groupNames, recordName, makeRecord, Function.comp_def]
  have failure : ∀ message, (buildFailureRecords group runId message).map recordName = groupNames group := by
    intro message
    simp [buildFailureRecords, groupNames, recordName, makeRecord, Function.comp_def]
  cases execution with
  | nothing reason =>
      rcases reason with empty | skipped
      · simp [groupNames, empty]
      · simp [unskipped] at skipped
  | refused message system => exact .of_eq (failure message)
  | dryRun dry system => exact .of_eq success
  | gateway ok message plugins system =>
      cases ok with
      | true => exact .of_eq success
      | false => exact .of_eq (failure message)
  | dispatched wet system journal running ok middle _ _ dispatched settled =>
      rcases settled with ⟨_, rfl, _⟩ | ⟨_, rfl, _⟩ | ⟨_, _, asked⟩
      · exact .of_eq success
      · exact .of_eq (failure _)
      · exact settleFailedCall_names asked

end Names

section Planned

variable {σ : Type} {host : Host σ} {config : ExecutionConfig}

/-- A plugin names missing packages among those it is asked about. -/
def Honest (host : Host σ) : Prop :=
  ∀ system packages plugins, (host.getMissingPackages system packages plugins).1.Sublist packages

/-- A group of the graph is kept as it is, or cut down to what its plugin reports missing. -/
theorem FilterOutcome.cases_coherent {group : TaskGroup} (coherent : group.Coherent)
    {outcome : Option TaskGroup} (filtered : FilterOutcome host group outcome) :
    outcome = some group ∨
      ∃ plugins missing, missing = (host.getMissingPackages group.system group.packages plugins).1 ∧
        actionUsesMissingPackageFilter group.action = true ∧ group.usesLocalTarget = false ∧
        outcome = if missing.isEmpty then none else some { group with packages := missing } := by
  cases filtered with
  | empty nothing => exact absurd nothing coherent.nonempty
  | kept something => exact Or.inl rfl
  | asked plugins something filtered system targeted missing reported =>
      -- Packages of a group that is filtered have an action, so none is filled in.
      have plain : (group.packages.map fun package =>
          if package.action = .unknown then { package with action := group.action } else package) =
          group.packages := by
        refine (List.map_congr_left fun package member => ?_).trans (List.map_id _)
        have action := coherent.action package member
        rw [if_neg]
        · rfl
        · intro unknown
          rw [← action, unknown] at filtered
          simp [actionUsesMissingPackageFilter] at filtered
      rw [plain] at reported
      exact Or.inr ⟨plugins, missing, reported, filtered, targeted, rfl⟩

@[simp] theorem preloadGroup_packages (loaded : World σ) (group : TaskGroup) :
    (preloadGroup host loaded group).packages = group.packages := by
  unfold preloadGroup
  split
  · rfl
  split <;> rfl

@[simp] theorem preloadGroup_system (loaded : World σ) (group : TaskGroup) :
    (preloadGroup host loaded group).system = group.system := by
  unfold preloadGroup
  split
  · rfl
  split <;> rfl

@[simp] theorem preloadGroup_action (loaded : World σ) (group : TaskGroup) :
    (preloadGroup host loaded group).action = group.action := by
  unfold preloadGroup
  split
  · rfl
  split <;> rfl

/-- What filtering leaves of a group. -/
def LeftOf (kept group : TaskGroup) : Prop :=
  kept.packages.Sublist group.packages ∧ kept.system = group.system

/-- A group of the same action, with some of the packages left out. -/
def CutDown (kept group : TaskGroup) : Prop := LeftOf kept group ∧ kept.action = group.action

theorem cutDown_outcomes (honest : Honest host) {groups : List TaskGroup} {outcomes : List (Option TaskGroup)}
    (coherent : ∀ group ∈ groups, group.Coherent)
    (paired : List.Forall₂ (FilterOutcome host) groups outcomes) :
    List.SublistForall₂ CutDown (outcomes.flatMap Option.toList) groups := by
  induction paired with
  | nil => exact .nil
  | cons filtered _ ih =>
      have rest := ih fun group member => coherent group (List.mem_cons_of_mem _ member)
      rcases filtered.cases_coherent (coherent _ List.mem_cons_self) with
        rfl | ⟨plugins, missing, reported, _, _, rfl⟩
      · exact .cons ⟨⟨List.Sublist.refl _, rfl⟩, rfl⟩ rest
      · split
        · exact .cons_right rest
        · refine .cons ⟨⟨?_, rfl⟩, rfl⟩ rest
          rw [reported]
          exact honest _ _ _

/-- The planned groups are groups of the graph, cut down. -/
theorem plannedGroups_cutDown (honest : Honest host) (config : ExecutionConfig) (inputAlreadyFiltered : Bool)
    (graph : Graph) (sorted : List Nat) (world : World σ) :
    List.SublistForall₂ CutDown (plannedGroups host config inputAlreadyFiltered graph sorted world).1
      (createFromGraph config.platform graph sorted) := by
  obtain ⟨outcomes, loaded, paired, equal⟩ :=
    plannedGroups_outcomes host config inputAlreadyFiltered graph sorted world
  have loading : (fun kept group => CutDown (preloadGroup host loaded kept) group) = CutDown := by
    funext kept group
    simp only [CutDown, LeftOf, preloadGroup_packages, preloadGroup_system, preloadGroup_action]
  rw [equal, List.sublistForall₂_map_left_iff, loading]
  exact cutDown_outcomes honest (createFromGraph_coherent _ _ _) paired

theorem plannedGroups_leftOf (honest : Honest host) (config : ExecutionConfig) (inputAlreadyFiltered : Bool)
    (graph : Graph) (sorted : List Nat) (world : World σ) :
    List.SublistForall₂ LeftOf (plannedGroups host config inputAlreadyFiltered graph sorted world).1
      (createFromGraph config.platform graph sorted) := by
  have cut := plannedGroups_cutDown honest config inputAlreadyFiltered graph sorted world
  rw [List.sublistForall₂_iff] at cut ⊢
  obtain ⟨chosen, related, sublist⟩ := cut
  exact ⟨chosen, related.imp fun _ _ cutDown => cutDown.1, sublist⟩

theorem filteredFrom_of_leftOf {kept groups : List TaskGroup}
    (left : List.SublistForall₂ LeftOf kept groups) : FilteredFrom kept groups := by
  rw [List.sublistForall₂_iff] at left
  obtain ⟨chosen, related, sublist⟩ := left
  exact List.sublistForall₂_iff.mpr ⟨chosen, related.imp fun _ _ leftOf => leftOf.1, sublist⟩

theorem names_sublist {kept groups : List TaskGroup} (left : List.SublistForall₂ LeftOf kept groups) :
    (kept.flatMap groupNames).Sublist (groups.flatMap groupNames) := by
  induction left with
  | nil => exact List.nil_sublist _
  | cons leftOf _ ih =>
      rw [List.flatMap_cons, List.flatMap_cons, groupNames, groupNames, leftOf.2]
      exact (leftOf.1.map _).append ih
  | cons_right _ ih =>
      rw [List.flatMap_cons]
      exact ih.trans (List.sublist_append_right _ _)

/-- A package its plugin did not report missing. -/
def NotReported (host : Host σ) (group : TaskGroup) (package : Package) : Prop :=
  ∃ plugins, package ∉ (host.getMissingPackages group.system group.packages plugins).1

/-- A package of the graph is planned, or it was filtered out because its plugin did
not report it missing. -/
theorem planned_or_dropped (honest : Honest host) (config : ExecutionConfig) (inputAlreadyFiltered : Bool)
    (sorted : List Nat) (world : World σ) {graph : Graph} {group : TaskGroup}
    (known : group ∈ createFromGraph config.platform graph sorted) {package : Package}
    (listed : package ∈ group.packages) :
    (∃ planned ∈ (plannedGroups host config inputAlreadyFiltered graph sorted world).1,
      PlannedFrom group planned ∧ planned.packages ⊆ group.packages ∧ package ∈ planned.packages) ∨
    (inputAlreadyFiltered = false ∧ actionUsesMissingPackageFilter group.action = true ∧
      group.usesLocalTarget = false ∧ NotReported host group package) := by
  have coherent := createFromGraph_coherent _ _ _ group known
  cases inputAlreadyFiltered with
  | true =>
      left
      refine ⟨preloadGroup host world group, ?_, preloadGroup_from world (.kept coherent.nonempty),
        by simp, by simpa using listed⟩
      simpa [plannedGroups, preload] using ⟨group, known, rfl⟩
  | false =>
      obtain ⟨outcomes, loaded, paired, equal⟩ :=
        plannedGroups_outcomes host config false graph sorted world
      obtain ⟨outcome, present, filtered⟩ := exists_right_of_forall₂ paired known
      have planned : ∀ kept, outcome = some kept → kept.packages ⊆ group.packages →
          package ∈ kept.packages → ∃ planned ∈ (plannedGroups host config false graph sorted world).1,
            PlannedFrom group planned ∧ planned.packages ⊆ group.packages ∧
              package ∈ planned.packages := by
        intro kept same part inside
        refine ⟨preloadGroup host loaded kept, ?_, preloadGroup_from loaded (same ▸ filtered),
          by simpa using part, by simpa using inside⟩
        rw [equal]
        exact List.mem_map_of_mem (List.mem_flatMap.mpr ⟨outcome, present, by simp [same]⟩)
      rcases filtered.cases_coherent coherent with kept | ⟨plugins, missing, reported, action, targeted, cut⟩
      · exact Or.inl (planned group kept (List.Subset.refl _) listed)
      · by_cases still : package ∈ missing
        · left
          have something : missing.isEmpty = false := by
            simpa using List.ne_nil_of_mem still
          rw [something] at cut
          exact planned _ cut (reported ▸ (honest _ _ _).subset) still
        · exact Or.inr ⟨rfl, action, targeted, plugins, reported ▸ still⟩

end Planned

section Statement

variable {σ : Type}

/-- The call is about the package: it is on its list, or the path is its file. -/
def PluginCall.concerns (package : Package) : PluginCall → Prop
  | .install _ _ packages => package ∈ packages
  | .remove _ _ packages => package ∈ packages
  | .update _ _ packages => package ∈ packages
  | .installLocal _ _ path => package.localTarget = true ∧ path = package.sourcePath
  | .pack _ _ path => package.localTarget = true ∧ path = package.sourcePath

/-- A group that is dispatched by its path holds files with that path only. -/
def OnePath (group : TaskGroup) : Prop :=
  (group.usesLocalTarget = true ∧ isPlanInstallLike group.action = true) ∨ group.action = .pack →
    ∀ package ∈ group.packages, package.localTarget = true ∧ package.sourcePath = group.localPath

/-- What became of a package that a successful call stands for. -/
inductive Accounted (host : Host σ) (graph : Graph) (config : ExecutionConfig) (sorted : List Nat)
    (world : World σ) (result : ExecuteResult σ) (package : Package) : Prop where
  | called (call : PluginCall)
      (made : (call, true) ∈ result.world.calls.drop world.calls.length)
      (concerns : call.concerns package)
  | leftDone (call : PluginCall)
      (made : (call, false) ∈ result.world.calls.drop world.calls.length)
      (concerns : call.concerns package) (group : TaskGroup) (planned : group ∈ result.taskGroups)
      (listed : package ∈ group.packages) (left : LeftDone host group package)
  | gateway (action : ActionType) (system : String) (packages : List Package)
      (sent : ((action, system, packages), true) ∈
        result.world.gatewayCalls.drop world.gatewayCalls.length)
      (listed : package ∈ packages)
  | dropped (group : TaskGroup) (known : group ∈ createFromGraph config.platform graph sorted)
      (listed : package ∈ group.packages) (reported : NotReported host group package)

/-- The package was planned and its group never started. -/
def NeverStarted (result : ExecuteResult σ) (package : Package) : Prop :=
  ∃ index group, result.taskGroups[index]? = some group ∧ package ∈ group.packages ∧
    index ∉ completedIndices result.log

/-- The items of the JSON document for a package, orphan removals left aside. -/
def itemCount (result : ExecuteResult σ) (package : Package) : Nat :=
  ((result.records ++ result.satisfiedRecords).map recordName).count (packageName package)

end Statement

section Apart

variable {graph : Graph} {sorted : List Nat} {groups : List TaskGroup}

/-- Packages that are read off their groups have the systems of the groups. -/
theorem flatMap_groupNames
    (systems : ∀ group ∈ groups, ∀ package ∈ group.packages, package.system = group.system) :
    groups.flatMap groupNames = (groups.flatMap (·.packages)).map packageName := by
  rw [List.map_flatMap]
  refine List.flatMap_congr fun group member => List.map_congr_left fun package listed => ?_
  rw [packageName, systems group member package listed]

theorem planned_system (left : List.SublistForall₂ LeftOf groups (createFromGraph .posix graph sorted))
    {group : TaskGroup} (member : group ∈ groups) {package : Package} (listed : package ∈ group.packages) :
    package.system = group.system := by
  obtain ⟨original, known, packages, system⟩ := exists_of_sublistForall₂ left member
  rw [system]
  exact (createFromGraph_coherent _ _ _ original known).system package (packages.subset listed)

/-- The groups of the graph hold its packages, on every platform. -/
theorem createFromGraph_packages_perm {platform : Platform} {graph : Graph} {sorted : List Nat}
    (ordered : SortedBy graph sorted) :
    ((createFromGraph platform graph sorted).flatMap (·.packages)).Perm graph.packages := by
  have vertices := (orderedVertices_perm platform graph sorted).trans ordered.perm
  have packages := vertices.map graph.package
  rw [map_package_range,
    ← groupAdjacent_packages ((orderedVertices platform graph sorted).map graph.package)] at packages
  refine List.Perm.trans ?_ packages
  simp only [createFromGraph]
  split
  · refine List.Perm.flatMap_right _ (List.perm_append_comm.trans ?_)
    exact List.filter_append_perm _ _
  · exact .refl _

theorem createFromGraph_names (ordered : SortedBy graph sorted) :
    ((createFromGraph .posix graph sorted).flatMap groupNames).Perm (graph.packages.map packageName) := by
  rw [flatMap_groupNames fun group member =>
    (createFromGraph_coherent _ _ _ group member).system]
  exact ordered.packages_perm.map packageName

/-- System and name tell the planned packages apart. -/
theorem planned_apart (ordered : SortedBy graph sorted) (apart : (graph.packages.map packageName).Nodup)
    (left : List.SublistForall₂ LeftOf groups (createFromGraph .posix graph sorted)) :
    (groups.flatMap groupNames).Nodup :=
  ((createFromGraph_names ordered).nodup_iff.mpr apart).sublist (names_sublist left)

/-- A planned package stands in one group. -/
theorem planned_index (ordered : SortedBy graph sorted) (apart : (graph.packages.map packageName).Nodup)
    (left : List.SublistForall₂ LeftOf groups (createFromGraph .posix graph sorted)) {first second : Nat}
    {firstGroup secondGroup : TaskGroup} (firstFound : groups[first]? = some firstGroup)
    (secondFound : groups[second]? = some secondGroup) {name : String × String}
    (inFirst : name ∈ groupNames firstGroup) (inSecond : name ∈ groupNames secondGroup) :
    first = second := by
  have disjoint := (List.nodup_flatMap.mp (planned_apart ordered apart left)).2
  rw [List.pairwise_iff_getElem] at disjoint
  obtain ⟨firstBound, rfl⟩ := List.getElem?_eq_some_iff.mp firstFound
  obtain ⟨secondBound, rfl⟩ := List.getElem?_eq_some_iff.mp secondFound
  rcases Nat.lt_trichotomy first second with before | equal | behind
  · exact absurd inSecond (disjoint first second firstBound secondBound before inFirst)
  · exact equal
  · exact absurd inFirst (disjoint second first secondBound firstBound behind inSecond)

theorem mem_groupNames_of_planned
    (left : List.SublistForall₂ LeftOf groups (createFromGraph .posix graph sorted))
    {group : TaskGroup} (member : group ∈ groups) {package : Package} (listed : package ∈ group.packages) :
    packageName package ∈ groupNames group := by
  refine List.mem_map.mpr ⟨package, listed, ?_⟩
  rw [packageName, planned_system left member listed]

/-- Packages of a planned group that share a record are one package. -/
theorem planned_eq_of_record (ordered : SortedBy graph sorted)
    (apart : (graph.packages.map packageName).Nodup)
    (left : List.SublistForall₂ LeftOf groups (createFromGraph .posix graph sorted)) {group : TaskGroup}
    (member : group ∈ groups) {first second : Package} (firstListed : first ∈ group.packages)
    (secondListed : second ∈ group.packages) (same : first.name = second.name) : first = second := by
  obtain ⟨original, known, packages, _⟩ := exists_of_sublistForall₂ left member
  have inGraph : ∀ package ∈ group.packages, package ∈ graph.packages := fun package listed =>
    ordered.packages_perm.mem_iff.1 (List.mem_flatMap.mpr ⟨original, known, packages.subset listed⟩)
  refine List.inj_on_of_nodup_map apart (inGraph first firstListed) (inGraph second secondListed) ?_
  rw [packageName, packageName, same, planned_system left member firstListed,
    planned_system left member secondListed]

end Apart

section Success

variable {σ : Type} {host : Host σ} {config : ExecutionConfig} {graph : Graph} {script : ExecuteScript}
  {world : World σ} {result : ExecuteResult σ} {inputAlreadyFiltered : Bool}

theorem CallFor.concerns {group : TaskGroup} {call : PluginCall} (called : CallFor group call)
    (onePath : OnePath group) {package : Package} (member : package ∈ group.packages) :
    call.concerns package := by
  obtain ⟨name, supportsPack, _, made⟩ := called
  cases action : group.action <;> simp only [pluginCallFor, action, reduceCtorEq] at made
  case install | ensure =>
    split at made
    · rename_i targeted
      obtain rfl := Option.some.inj made
      obtain ⟨target, path⟩ := onePath (Or.inl ⟨targeted, by simp [isPlanInstallLike, action]⟩) package member
      exact ⟨target, path.symm⟩
    · obtain rfl := Option.some.inj made
      exact member
  case remove | update =>
    obtain rfl := Option.some.inj made
    exact member
  case pack =>
    split at made
    · obtain rfl := Option.some.inj made
      obtain ⟨target, path⟩ := onePath (Or.inr action) package member
      exact ⟨target, path.symm⟩
    · simp at made

theorem onePath_planned {group planned : TaskGroup} (origin : PlannedFrom group planned)
    (part : planned.packages ⊆ group.packages) (onePath : OnePath group) : OnePath planned := by
  intro byPath package member
  rw [origin.usesLocalTarget, origin.action] at byPath
  rw [origin.localPath]
  exact onePath byPath package (part member)

/-- What a call on a graph has to do with its plugins and packages for its report to
be complete. -/
structure Reportable (host : Host σ) (config : ExecutionConfig) (graph : Graph) (sorted : List Nat) :
    Prop where
  posix : config.platform = .posix
  honest : Honest host
  ordered : SortedBy graph sorted
  distinct : DistinctKeys graph
  apart : (graph.packages.map packageName).Nodup

/-- The part of it that a group needs to get its records. -/
structure Completable (host : Host σ) (config : ExecutionConfig) (graph : Graph) (sorted : List Nat) :
    Prop where
  posix : config.platform = .posix
  honest : Honest host
  ordered : SortedBy graph sorted
  distinct : DistinctKeys graph

theorem Reportable.completable (reportable : Reportable host config graph script.sorted) :
    Completable host config graph script.sorted :=
  ⟨reportable.posix, reportable.honest, reportable.ordered, reportable.distinct⟩

theorem Completable.leftOf (completable : Completable host config graph script.sorted)
    (done : executeGraph host config inputAlreadyFiltered graph script world = some result) :
    List.SublistForall₂ LeftOf result.taskGroups (createFromGraph .posix graph script.sorted) := by
  obtain ⟨_, groups, _⟩ := executeGraph_cases done
  rw [groups, ← completable.posix]
  exact plannedGroups_leftOf completable.honest config inputAlreadyFiltered graph script.sorted world

theorem Completable.unskipped (completable : Completable host config graph script.sorted) (group : TaskGroup) :
    softSkipsNix host config group = false := by
  simp [softSkipsNix, completable.posix, Platform.softSkipNixInstalls]

/-- In a call without a failed record every planned group has completed. -/
theorem Completable.completed (completable : Completable host config graph script.sorted)
    (done : executeGraph host config inputAlreadyFiltered graph script world = some result)
    {opened : World σ} {run : RunResult (World σ)}
    (main : MainPass host config graph script world result opened run)
    (clean : hasFailure result.records = false) {index : Nat} (bound : index < result.taskGroups.length) :
    index ∈ completedIndices result.log := by
  have filtered := filteredFrom_of_leftOf (completable.leftOf done)
  have forward : Forward (createPlans config.platform host.resolvePluginName result.taskGroups
      (some graph)) := by
    rw [forward_iff_keysForward, completable.posix]
    exact keysForward_of_distinctKeys completable.ordered completable.distinct filtered
  obtain ⟨length, consistent, _⟩ :=
    createPlans_spec config.platform host.resolvePluginName result.taskGroups graph
  have ran := main.ran
  rw [main.records] at clean
  rw [main.log]
  exact runPlans_complete consistent forward ran clean (length.symm ▸ bound)

theorem hasFailure_of_accepted {records : List TransactionRecord} (accepted : records.all isAccepted = true) :
    hasFailure records = false := by
  rw [hasFailure, List.any_eq_false]
  intro record member failed
  have good := List.all_eq_true.mp accepted record member
  rw [beq_iff_eq] at failed
  simp [isAccepted, failed] at good

/-- A planned package of a call that succeeded was executed, and its record is a success. -/
theorem Completable.executed (completable : Completable host config graph script.sorted)
    (done : executeGraph host config inputAlreadyFiltered graph script world = some result)
    (ok : result.ok = true) {group : TaskGroup} (planned : group ∈ result.taskGroups)
    {package : Package} (listed : package ∈ group.packages) :
    ∃ runId before records after message, Extends world before ∧
      GroupExecution host config runId group before records after ∧ Extends after result.world ∧
      makeRecord group runId .success message package ∈ records ∧
      makeRecord group runId .success message package ∈ result.records := by
  rcases executeGraph_mainPass done with ⟨_, failed⟩ | ⟨opened, run, main⟩
  · simp [ok] at failed
  obtain ⟨once, whole⟩ := main.records_eq
  have accepted : result.records.all isAccepted = true := by
    rw [main.accepted, ExecuteResult.allRecords, List.all_append, List.all_append] at ok
    simp only [Bool.and_eq_true] at ok
    exact ok.1.1
  obtain ⟨index, bound, rfl⟩ := List.getElem_of_mem planned
  have completed := completable.completed done main (hasFailure_of_accepted accepted) bound
  obtain ⟨records, logged⟩ := mem_completedIndices.1 completed
  obtain ⟨before, after, earlier, execution, later⟩ :=
    main.execution (List.getElem?_eq_getElem bound) logged
  -- The package has a record, the record is part of the result, so it is a success.
  obtain ⟨status, message, made⟩ := execution.covers (completable.unskipped _) listed
  have reported : makeRecord result.taskGroups[index] opened.activeRunId status message package ∈
      result.records := by
    rw [whole]
    exact List.mem_flatMap.mpr ⟨index, List.mem_range.mpr bound, mem_recordsIn.2 ⟨records, logged, made⟩⟩
  have success : status = .success := by
    have good := List.all_eq_true.mp accepted _ reported
    obtain ⟨_, _, _, _, same, final⟩ := execution.record_of made
    have equal := congrArg TransactionRecord.status same
    cases status with
    | success => rfl
    | failed => simp [isAccepted, makeRecord] at good
    | skipped => exact absurd equal.symm final
  rw [success] at made reported
  exact ⟨opened.activeRunId, before, records, after, message, earlier, execution, later, made, reported⟩

/-- A planned package of a call that succeeded was carried out. -/
theorem Reportable.carriedOut (reportable : Reportable host config graph script.sorted)
    (wet : config.dryRun = false)
    (done : executeGraph host config inputAlreadyFiltered graph script world = some result)
    (ok : result.ok = true) {group : TaskGroup} (planned : group ∈ result.taskGroups)
    {package : Package} (listed : package ∈ group.packages) :
    ∃ before after, Extends world before ∧ CarriedOut host group package before after ∧
      Extends after result.world := by
  obtain ⟨runId, before, records, after, message, earlier, execution, later, made, _⟩ :=
    reportable.completable.executed done ok planned listed
  obtain ⟨other, otherListed, same, carriedOut⟩ := execution.carriedOut wet made rfl
  have name : package.name = other.name := congrArg TransactionRecord.packageName same
  obtain rfl := planned_eq_of_record reportable.ordered reportable.apart
    (reportable.completable.leftOf done) planned listed otherListed name
  exact ⟨before, after, earlier, carriedOut, later⟩

/-- A call that reports success has accounted for every package of the graph. -/
theorem Reportable.accounted (reportable : Reportable host config graph script.sorted)
    (wet : config.dryRun = false)
    (onePath : ∀ group ∈ createFromGraph config.platform graph script.sorted, OnePath group)
    (done : executeGraph host config inputAlreadyFiltered graph script world = some result)
    (ok : result.ok = true) {package : Package} (member : package ∈ graph.packages) :
    Accounted host graph config script.sorted world result package := by
  have groups := (executeGraph_cases done).2.1
  obtain ⟨group, known, listed⟩ : ∃ group ∈ createFromGraph config.platform graph script.sorted,
      package ∈ group.packages := by
    rw [reportable.posix]
    exact List.mem_flatMap.mp (reportable.ordered.packages_perm.mem_iff.2 member)
  rcases planned_or_dropped reportable.honest config inputAlreadyFiltered script.sorted world known listed with
    ⟨planned, present, origin, part, inside⟩ | ⟨_, _, _, dropped⟩
  · rw [← groups] at present
    obtain ⟨before, after, earlier, carriedOut, later⟩ :=
      reportable.carriedOut wet done ok present inside
    rcases carriedOut with sent | ⟨call, outcome, called, grown, settled⟩
    · exact .gateway _ _ _ (earlier.mem_new_gatewayCalls sent later (List.mem_singleton_self _)) inside
    · have concerns := called.concerns (onePath_planned origin part (onePath group known)) inside
      have made := earlier.mem_new_calls grown later (List.mem_singleton_self _)
      cases outcome with
      | true => exact .called call made concerns
      | false =>
          obtain impossible | left := settled
          · simp at impossible
          · exact .leftDone call made concerns planned present inside left
  · exact .dropped group known listed dropped

end Success

section Items

variable {σ : Type} {host : Host σ} {config : ExecutionConfig} {graph : Graph} {script : ExecuteScript}
  {world : World σ} {result : ExecuteResult σ} {inputAlreadyFiltered : Bool}

/-- The names of the groups that were executed. -/
def startedNames (result : ExecuteResult σ) : List (String × String) :=
  (List.range result.taskGroups.length).flatMap fun index =>
    if index ∈ completedIndices result.log then groupNames (result.taskGroups.getD index {}) else []

theorem mem_startedNames {name : String × String} :
    name ∈ startedNames result ↔ ∃ index group, result.taskGroups[index]? = some group ∧
      index ∈ completedIndices result.log ∧ name ∈ groupNames group := by
  simp only [startedNames, List.mem_flatMap, List.mem_range, List.mem_ite_nil_right]
  constructor
  · intro started
    obtain ⟨index, bound, completed, listed⟩ := started
    rw [List.getD_eq_getElem _ _ bound] at listed
    exact ⟨index, _, List.getElem?_eq_getElem bound, completed, listed⟩
  · intro started
    obtain ⟨index, group, found, completed, listed⟩ := started
    obtain ⟨bound, rfl⟩ := List.getElem?_eq_some_iff.mp found
    refine ⟨index, bound, completed, ?_⟩
    rw [List.getD_eq_getElem _ _ bound]
    exact listed

theorem startedNames_sublist (result : ExecuteResult σ) :
    (startedNames result).Sublist (result.taskGroups.flatMap groupNames) := by
  have all : (List.range result.taskGroups.length).flatMap
      (fun index => groupNames (result.taskGroups.getD index {})) = result.taskGroups.flatMap groupNames := by
    have groups : (List.range result.taskGroups.length).map (fun index => result.taskGroups.getD index {}) =
        result.taskGroups := by
      apply List.ext_getElem
      · simp
      · intro index bound inside
        simp [List.getD_eq_getElem?_getD, inside]
    conv_rhs => rw [← groups]
    rw [List.flatMap_map]
  rw [← all]
  refine List.Sublist.flatMap_right _ fun index _ => ?_
  split
  · exact List.Sublist.refl _
  · exact List.nil_sublist _

/-- The records of the main pass name the packages of the executed groups. -/
theorem Reportable.records_names (reportable : Reportable host config graph script.sorted)
    {opened : World σ} {run : RunResult (World σ)}
    (main : MainPass host config graph script world result opened run) :
    (result.records.map recordName).Perm (startedNames result) := by
  obtain ⟨once, whole⟩ := main.records_eq
  rw [whole, List.map_flatMap, startedNames]
  refine List.Perm.flatMap_left _ fun index inside => ?_
  have bound := List.mem_range.mp inside
  split
  · rename_i completed
    obtain ⟨records, logged⟩ := mem_completedIndices.1 completed
    obtain ⟨before, after, _, execution, _⟩ :=
      main.execution (List.getElem?_eq_getElem bound) logged
    rw [recordsIn_of_mem once logged, List.getD_eq_getElem _ _ bound]
    exact execution.names (reportable.completable.unskipped _)
  · rename_i unfinished
    rw [recordsIn_eq_nil unfinished]
    exact List.Perm.refl _

/-- The pass over the satisfied packages names those that were filtered out. -/
theorem satisfied_names (installedState : List InstalledEntry) (allTaskGroups taskGroups : List TaskGroup) :
    (buildAlreadySatisfiedRecords installedState allTaskGroups taskGroups).map recordName =
      (allTaskGroups.filter fun group =>
        actionUsesMissingPackageFilter group.action && !group.usesLocalTarget).flatMap fun group =>
          (groupNames group).filter fun name => !(taskGroups.flatMap groupNames).contains name := by
  simp only [buildAlreadySatisfiedRecords, List.map_flatMap, List.map_map]
  refine List.flatMap_congr fun group _ => ?_
  rw [groupNames, List.filter_map]
  rfl

theorem satisfied_names_sublist (installedState : List InstalledEntry)
    (allTaskGroups taskGroups : List TaskGroup) :
    ((buildAlreadySatisfiedRecords installedState allTaskGroups taskGroups).map recordName).Sublist
      (allTaskGroups.flatMap groupNames) := by
  rw [satisfied_names]
  exact (List.Sublist.flatMap_right _ fun _ _ => List.filter_sublist).trans
    (List.filter_sublist.flatMap groupNames)

theorem mem_satisfied_names {installedState : List InstalledEntry} {allTaskGroups taskGroups : List TaskGroup}
    {name : String × String} :
    name ∈ (buildAlreadySatisfiedRecords installedState allTaskGroups taskGroups).map recordName ↔
      name ∉ taskGroups.flatMap groupNames ∧ ∃ group ∈ allTaskGroups,
        actionUsesMissingPackageFilter group.action = true ∧ group.usesLocalTarget = false ∧
        name ∈ groupNames group := by
  rw [satisfied_names, List.mem_flatMap]
  constructor
  · intro listed
    obtain ⟨group, kept, named⟩ := listed
    rw [List.mem_filter] at kept named
    simp only [Bool.and_eq_true, Bool.not_eq_true'] at kept
    exact ⟨by simpa using named.2, group, kept.1, kept.2.1, kept.2.2, named.1⟩
  · intro listed
    obtain ⟨absent, group, known, action, targeted, named⟩ := listed
    exact ⟨group, List.mem_filter.mpr ⟨known, by simp [action, targeted]⟩,
      List.mem_filter.mpr ⟨named, by simpa using absent⟩⟩

/-- A call that finds no active run opens one of its own. -/
theorem openRun_isSome {groups : List TaskGroup} (idle : world.journal.activeRun = none) :
    openRun host config groups world ≠ none := by
  unfold openRun
  split
  · simp [Journal.createRun, idle]
  · simp

/-- The items added for satisfied packages: one for each package that was filtered out. -/
theorem Reportable.satisfied_items (reportable : Reportable host config graph script.sorted)
    (json : config.jsonOutput = true) {allTaskGroups taskGroups : List TaskGroup}
    {run : RunResult (World σ)} {orphanRounds : Nat}
    (all : allTaskGroups = createFromGraph config.platform graph script.sorted)
    (concluded : concludeRun host config inputAlreadyFiltered orphanRounds allTaskGroups taskGroups run =
      some result) :
    (result.satisfiedRecords.map recordName).Nodup ∧
      (∀ name ∈ result.satisfiedRecords.map recordName, name ∉ taskGroups.flatMap groupNames) ∧
      (inputAlreadyFiltered = false → ∀ group ∈ allTaskGroups,
        actionUsesMissingPackageFilter group.action = true → group.usesLocalTarget = false →
        ∀ name ∈ groupNames group, name ∉ taskGroups.flatMap groupNames →
          name ∈ result.satisfiedRecords.map recordName) := by
  obtain ⟨cleaned, _, _, _, satisfied, _⟩ := concludeRun_cases concluded
  rw [json, Bool.true_and] at satisfied
  rw [satisfied]
  cases inputAlreadyFiltered with
  | true => simp
  | false =>
      simp only [Bool.not_false, if_true]
      refine ⟨?_, fun name listed => (mem_satisfied_names.1 listed).1, ?_⟩
      · have names : (allTaskGroups.flatMap groupNames).Nodup := by
          rw [all, reportable.posix]
          exact (createFromGraph_names reportable.ordered).nodup_iff.mpr reportable.apart
        exact names.sublist (satisfied_names_sublist _ _ _)
      · intro _ group known action targeted name named absent
        exact mem_satisfied_names.2 ⟨absent, group, known, action, targeted, named⟩

/-- In JSON mode there is one item for every package, and none for those whose group
never started. -/
theorem Reportable.one_item (reportable : Reportable host config graph script.sorted)
    (json : config.jsonOutput = true) (idle : world.journal.activeRun = none)
    (done : executeGraph host config inputAlreadyFiltered graph script world = some result)
    {package : Package} (member : package ∈ graph.packages) :
    (NeverStarted result package ∧ itemCount result package = 0) ∨
      (¬ NeverStarted result package ∧ itemCount result package = 1) := by
  obtain ⟨all, groups, ⟨_, _, _, _, unopened⟩ | ⟨opened, run, created, ran, concluded⟩⟩ :=
    executeGraph_cases done
  · refine absurd unopened (openRun_isSome ?_)
    have touches := plannedGroups_touches host config inputAlreadyFiltered graph script.sorted world
    unfold TouchesPlugins at touches
    rw [touches]
    exact idle
  have left := reportable.completable.leftOf done
  have started := reportable.records_names (mainPass_of_stages created ran concluded)
  obtain ⟨satisfiedOnce, unplanned, filteredOut⟩ := reportable.satisfied_items json all concluded
  have names : ∀ name, name ∈ (result.records ++ result.satisfiedRecords).map recordName ↔
      name ∈ startedNames result ∨ name ∈ result.satisfiedRecords.map recordName := by
    intro name
    rw [List.map_append, List.mem_append, started.mem_iff]
  have once : ((result.records ++ result.satisfiedRecords).map recordName).Nodup := by
    rw [List.map_append, List.nodup_append]
    have startedOnce := (planned_apart reportable.ordered reportable.apart left).sublist
      (startedNames_sublist result)
    refine ⟨started.nodup_iff.mpr startedOnce, satisfiedOnce, fun name inRecords other inSatisfied same => ?_⟩
    subst same
    exact unplanned name inSatisfied
      ((startedNames_sublist result).subset (started.mem_iff.1 inRecords))
  by_cases planned : ∃ group ∈ result.taskGroups, package ∈ group.packages
  · obtain ⟨group, present, listed⟩ := planned
    have named := mem_groupNames_of_planned left present listed
    obtain ⟨index, bound, rfl⟩ := List.getElem_of_mem present
    have found := List.getElem?_eq_getElem bound
    have unique : ∀ other otherGroup, result.taskGroups[other]? = some otherGroup →
        packageName package ∈ groupNames otherGroup → other = index :=
      fun other otherGroup otherFound otherNamed =>
        planned_index reportable.ordered reportable.apart left otherFound found otherNamed named
    by_cases completed : index ∈ completedIndices result.log
    · refine Or.inr ⟨?_, List.count_eq_one_of_mem once ((names _).mpr (Or.inl ?_))⟩
      · intro never
        obtain ⟨other, otherGroup, otherFound, otherListed, unfinished⟩ := never
        have same := unique other otherGroup otherFound
          (mem_groupNames_of_planned left (List.mem_of_getElem? otherFound) otherListed)
        exact unfinished (same ▸ completed)
      · exact mem_startedNames.2 ⟨index, _, found, completed, named⟩
    · refine Or.inl ⟨⟨index, _, found, listed, completed⟩, List.count_eq_zero_of_not_mem fun item => ?_⟩
      rcases (names _).mp item with inStarted | inSatisfied
      · obtain ⟨other, otherGroup, otherFound, otherCompleted, otherNamed⟩ := mem_startedNames.1 inStarted
        exact completed (unique other otherGroup otherFound otherNamed ▸ otherCompleted)
      · exact unplanned _ inSatisfied (List.mem_flatMap.mpr ⟨_, present, named⟩)
  · -- A package that is not planned was filtered out, so it has its item from the second pass.
    refine Or.inr ⟨fun never => ?_, List.count_eq_one_of_mem once ((names _).mpr (Or.inr ?_))⟩
    · obtain ⟨index, group, found, listed, _⟩ := never
      exact planned ⟨group, List.mem_of_getElem? found, listed⟩
    · obtain ⟨group, known, listed⟩ : ∃ group ∈ createFromGraph config.platform graph script.sorted,
          package ∈ group.packages := by
        rw [reportable.posix]
        exact List.mem_flatMap.mp (reportable.ordered.packages_perm.mem_iff.2 member)
      rcases planned_or_dropped reportable.honest config inputAlreadyFiltered script.sorted world known
        listed with ⟨other, present, _, _, inside⟩ | ⟨unfiltered, action, targeted, _⟩
      · exact absurd ⟨other, groups ▸ present, inside⟩ planned
      · have system := (createFromGraph_coherent _ _ _ group known).system package listed
        refine filteredOut unfiltered group (all ▸ known) action targeted _
          (List.mem_map.mpr ⟨package, listed, by rw [packageName, system]⟩) fun inPlanned => ?_
        obtain ⟨other, present, named⟩ := List.mem_flatMap.mp inPlanned
        obtain ⟨candidate, inside, same⟩ := List.mem_map.mp named
        refine planned ⟨other, present, ?_⟩
        obtain ⟨original, originalKnown, packages, _⟩ := exists_of_sublistForall₂ left present
        have inGraph := reportable.ordered.packages_perm.mem_iff.1
          (List.mem_flatMap.mpr ⟨original, originalKnown, packages.subset inside⟩)
        rw [← List.inj_on_of_nodup_map reportable.apart inGraph member
          (by rw [← same, packageName, planned_system left present inside])]
        exact inside

end Items

/-- A call that finds no active run goes straight to its graph. -/
theorem execute_of_idle {σ : Type} {host : Host σ} {config : ExecutionConfig} {inputAlreadyFiltered : Bool}
    {graph : Graph} {script : ExecuteScript} {world : World σ} (idle : world.journal.activeRun = none) :
    execute host config inputAlreadyFiltered graph script world =
      executeGraph host config inputAlreadyFiltered graph script
        (if config.useTransactionDb then { world with activeRunId := "" } else world) := by
  have inactive : world.journal.getActiveRun = none := by simp [Journal.getActiveRun, idle]
  unfold execute
  split
  · simp [recoverInterruptedRun, recoverPendingTaskGroups, inactive]
  · rfl

theorem honest_obligingHost (gateway : String → Bool) : Honest (obligingHost gateway) :=
  fun _ packages _ => List.Sublist.refl packages

end ReqPack.Executor
