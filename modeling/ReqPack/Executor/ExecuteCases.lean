import ReqPack.Data.Lists
import ReqPack.Executor.Frames

/-! # The stages of one call

`executeGraph_cases` takes a call apart into the groups that were planned, the run
of the scheduler and the clean-up behind it.
-/

namespace ReqPack.Executor

open ReqPack.Data ReqPack.Core ReqPack.Scheduler

variable {σ : Type} {host : Host σ} {config : ExecutionConfig}

section Planned

/-- The groups a call hands to the scheduler, and the world once the plugins were asked. -/
def plannedGroups (host : Host σ) (config : ExecutionConfig) (inputAlreadyFiltered : Bool)
    (graph : Graph) (sorted : List Nat) (world : World σ) : List TaskGroup × World σ :=
  let allTaskGroups := createFromGraph config.platform graph sorted
  let filtered :=
    if inputAlreadyFiltered then (allTaskGroups, world) else filterExecutable host allTaskGroups world
  (preload host filtered.1 filtered.2, filtered.2)

theorem plannedGroups_touches (host : Host σ) (config : ExecutionConfig) (inputAlreadyFiltered : Bool)
    (graph : Graph) (sorted : List Nat) (world : World σ) :
    TouchesPlugins world (plannedGroups host config inputAlreadyFiltered graph sorted world).2 := by
  cases inputAlreadyFiltered with
  | true => rfl
  | false => exact filterExecutable_touches host _ world

/-- What filtering can do to a group: keep it, drop it, or cut it down to the
packages its plugin reports missing. -/
inductive FilterOutcome (host : Host σ) (group : TaskGroup) : Option TaskGroup → Prop where
  | empty (nothing : group.packages = []) : FilterOutcome host group none
  | kept (something : group.packages ≠ []) : FilterOutcome host group (some group)
  | asked (plugins : σ) (something : group.packages ≠ [])
      (filtered : actionUsesMissingPackageFilter group.action = true)
      (system : host.isGatewaySystem group.system = false)
      (targeted : group.usesLocalTarget = false) (missing : List Package)
      (reported : missing = (host.getMissingPackages group.system
        (group.packages.map fun package =>
          if package.action = .unknown then { package with action := group.action } else package)
        plugins).1) :
      FilterOutcome host group
        (if missing.isEmpty then none else some { group with packages := missing })

theorem filterGroup_outcome (group : TaskGroup) (world : World σ) :
    FilterOutcome host group (filterGroup host group world).1 := by
  cases nothing : group.packages.isEmpty with
  | true =>
      simp only [filterGroup, nothing, if_true]
      exact .empty (List.isEmpty_iff.mp nothing)
  | false =>
      have something : group.packages ≠ [] := by
        intro empty
        simp [empty] at nothing
      simp only [filterGroup, nothing, Bool.false_eq_true, if_false]
      split
      · exact .kept something
      rename_i filtered
      split
      · exact .kept something
      rename_i system
      split
      · exact .kept something
      split
      · exact .kept something
      rename_i targeted
      exact .asked world.plugins something (by simpa using filtered) (by simpa using system)
        (by simpa using targeted) _ rfl

/-- The filtered groups are what is left of the groups, one after the other. -/
theorem filterExecutable_forall₂ (groups : List TaskGroup) (world : World σ) :
    ∃ outcomes, List.Forall₂ (FilterOutcome host) groups outcomes ∧
      (filterExecutable host groups world).1 = outcomes.flatMap Option.toList := by
  unfold filterExecutable
  induction groups using List.reverseRecOn with
  | nil => exact ⟨[], .nil, rfl⟩
  | append_singleton groups group ih =>
      obtain ⟨outcomes, paired, equal⟩ := ih
      rw [List.foldl_concat]
      generalize groups.foldl _ _ = kept at equal ⊢
      refine ⟨outcomes ++ [(filterGroup host group kept.2).1],
        List.rel_append paired (.cons (filterGroup_outcome group kept.2) .nil), ?_⟩
      simp [equal]

/-- The planned groups are what filtering left of the groups of the graph, preloaded. -/
theorem plannedGroups_outcomes (host : Host σ) (config : ExecutionConfig) (inputAlreadyFiltered : Bool) (graph : Graph)
    (sorted : List Nat) (world : World σ) :
    ∃ outcomes loaded,
      List.Forall₂ (FilterOutcome host) (createFromGraph config.platform graph sorted) outcomes ∧
      (plannedGroups host config inputAlreadyFiltered graph sorted world).1 =
        (outcomes.flatMap Option.toList).map (preloadGroup host loaded) := by
  cases inputAlreadyFiltered with
  | true =>
      refine ⟨(createFromGraph config.platform graph sorted).map some, world, ?_, ?_⟩
      · rw [List.forall₂_map_right_iff, List.forall₂_same]
        intro group member
        exact .kept (createFromGraph_coherent _ _ _ group member).nonempty
      · simp [plannedGroups, preload, List.flatMap_map]
  | false =>
      obtain ⟨outcomes, paired, equal⟩ :=
        filterExecutable_forall₂ (createFromGraph config.platform graph sorted) world
      refine ⟨outcomes, (filterExecutable host (createFromGraph config.platform graph sorted) world).2,
        paired, ?_⟩
      simp [plannedGroups, preload, equal]

/-- How a planned group goes back to a group of the graph. -/
structure PlannedFrom (original planned : TaskGroup) : Prop where
  action : planned.action = original.action
  system : planned.system = original.system
  usesLocalTarget : planned.usesLocalTarget = original.usesLocalTarget
  localPath : planned.localPath = original.localPath
  nonempty : planned.packages ≠ []
  packages : original.usesLocalTarget = true → planned.packages = original.packages
  plugin : ∀ name, planned.plugin = some name → name = planned.system

theorem preloadGroup_from (loaded : World σ) {original group : TaskGroup}
    (outcome : FilterOutcome host original (some group)) :
    PlannedFrom original (preloadGroup host loaded group) := by
  have filtered : ∃ packages, packages ≠ [] ∧ group = { original with packages := packages } ∧
      (original.usesLocalTarget = true → packages = original.packages) := by
    generalize same : some group = left at outcome
    cases outcome with
    | empty nothing => simp at same
    | kept something =>
        cases same
        exact ⟨original.packages, something, rfl, fun _ => rfl⟩
    | asked plugins something filtered system targeted missing reported =>
        split at same
        · simp at same
        · rename_i some
          cases same
          refine ⟨missing, fun none => some (by simp [none]), rfl, fun targets => ?_⟩
          simp [targeted] at targets
  obtain ⟨packages, something, rfl, targets⟩ := filtered
  unfold preloadGroup
  split
  · exact ⟨rfl, rfl, rfl, rfl, something, targets, by simp⟩
  split
  · exact ⟨rfl, rfl, rfl, rfl, something, targets, by simp⟩
  · exact ⟨rfl, rfl, rfl, rfl, something, targets, by simp⟩

theorem plannedGroups_from {inputAlreadyFiltered : Bool} {graph : Graph} {sorted : List Nat}
    {world : World σ} {planned : TaskGroup}
    (member : planned ∈ (plannedGroups host config inputAlreadyFiltered graph sorted world).1) :
    ∃ original ∈ createFromGraph config.platform graph sorted, PlannedFrom original planned := by
  obtain ⟨outcomes, loaded, paired, equal⟩ :=
    plannedGroups_outcomes host config inputAlreadyFiltered graph sorted world
  rw [equal, List.mem_map] at member
  obtain ⟨group, listed, rfl⟩ := member
  obtain ⟨outcome, present, same⟩ := List.mem_flatMap.mp listed
  rw [Option.mem_toList] at same
  subst outcome
  obtain ⟨original, known, related⟩ := exists_left_of_forall₂ paired present
  exact ⟨original, known, preloadGroup_from loaded related⟩

/-- What holds of the actions of the packages of a graph holds in its groups. -/
theorem createFromGraph_action {allowed : ActionType → Prop} (default : allowed .unknown)
    {platform : Platform} {graph : Graph} {sorted : List Nat}
    (all : ∀ package ∈ graph.packages, allowed package.action) {group : TaskGroup}
    (known : group ∈ createFromGraph platform graph sorted) {package : Package}
    (listed : package ∈ group.packages) : allowed package.action := by
  obtain ⟨vertex, _, rfl⟩ := exists_vertex_of_mem_createFromGraph known listed
  by_cases inside : vertex < graph.packages.length
  · exact all _ (graph.package_mem inside)
  · rw [Graph.package, List.getD_eq_default _ _ (Nat.le_of_not_lt inside)]
    exact default

theorem plannedGroup_action {allowed : ActionType → Prop} (default : allowed .unknown)
    {inputAlreadyFiltered : Bool} {graph : Graph} {sorted : List Nat} {world : World σ}
    (all : ∀ package ∈ graph.packages, allowed package.action) {group : TaskGroup}
    (member : group ∈ (plannedGroups host config inputAlreadyFiltered graph sorted world).1) :
    allowed group.action := by
  obtain ⟨original, known, origin⟩ := plannedGroups_from member
  have coherent := createFromGraph_coherent _ _ _ original known
  obtain ⟨package, listed⟩ := List.exists_mem_of_ne_nil _ coherent.nonempty
  rw [origin.action, ← coherent.action package listed]
  exact createFromGraph_action default all known listed

end Planned

section Calls

/-- A call that could not open its run, or one that ran its groups to the end. -/
theorem executeGraph_cases {inputAlreadyFiltered : Bool} {graph : Graph} {script : ExecuteScript}
    {world : World σ} {result : ExecuteResult σ}
    (done : executeGraph host config inputAlreadyFiltered graph script world = some result) :
    result.allTaskGroups = createFromGraph config.platform graph script.sorted ∧
    result.taskGroups =
      (plannedGroups host config inputAlreadyFiltered graph script.sorted world).1 ∧
    ((result.ok = false ∧ result.log = [] ∧ result.allRecords = [] ∧
        result.world = (plannedGroups host config inputAlreadyFiltered graph script.sorted world).2 ∧
        openRun host config result.taskGroups
          (plannedGroups host config inputAlreadyFiltered graph script.sorted world).2 = none) ∨
      ∃ opened run,
        openRun host config result.taskGroups
            (plannedGroups host config inputAlreadyFiltered graph script.sorted world).2 = some opened ∧
        ParallelTaskScheduler.run config.stopOnFirstFailure
            (executeTaskGroup host config opened.activeRunId) config.platform host.resolvePluginName
            result.taskGroups (some graph) config.jobs script.events opened = some run ∧
        concludeRun host config inputAlreadyFiltered script.orphanRounds result.allTaskGroups
            result.taskGroups run = some result) := by
  unfold executeGraph at done
  simp only at done
  split at done
  · rename_i failed
    cases done
    exact ⟨rfl, rfl, Or.inl ⟨rfl, rfl, rfl, rfl, failed⟩⟩
  · rename_i opened created
    split at done
    · simp at done
    · rename_i run ran
      have stored : result.allTaskGroups = createFromGraph config.platform graph script.sorted ∧
          result.taskGroups =
            (plannedGroups host config inputAlreadyFiltered graph script.sorted world).1 := by
        simp only [concludeRun] at done
        split at done
        · simp at done
        · cases done
          exact ⟨rfl, rfl⟩
      refine ⟨stored.1, stored.2, Or.inr ⟨opened, run, ?_, ?_, ?_⟩⟩
      · rw [stored.2]
        exact created
      · rw [stored.2]
        exact ran
      · rw [stored.1, stored.2]
        exact done

theorem openRun_world {groups : List TaskGroup} {world opened : World σ}
    (created : openRun host config groups world = some opened) :
    opened = { world with journal := opened.journal, activeRunId := opened.activeRunId } := by
  unfold openRun at created
  split at created
  · rw [Option.map_eq_some_iff] at created
    obtain ⟨_, _, rfl⟩ := created
    rfl
  · cases created
    rfl

/-- What stands in the result once the records of the main pass are known. -/
theorem concludeRun_cases {inputAlreadyFiltered : Bool} {orphanRounds : Nat}
    {allTaskGroups taskGroups : List TaskGroup} {run : RunResult (World σ)} {result : ExecuteResult σ}
    (concluded : concludeRun host config inputAlreadyFiltered orphanRounds allTaskGroups taskGroups run =
      some result) :
    ∃ cleaned, removeOrphanedDependencies host config orphanRounds run.records
        (subtractDependencyOwnership host config run.records
          (reconcileInstalledOwnership host config allTaskGroups taskGroups run.records
            (recordHistory host config run.records run.world))) = some (result.orphanRecords, cleaned) ∧
      result.records = run.records ∧ result.log = run.log ∧
      result.satisfiedRecords =
        (if config.jsonOutput && !inputAlreadyFiltered then
          buildAlreadySatisfiedRecords
            (if config.historyManager then cleaned.installed.loadInstalledState else [])
            allTaskGroups taskGroups
        else []) ∧
      result.ok = result.allRecords.all isAccepted ∧
      result.world = if config.useTransactionDb then
        finishTransactions host config result.allRecords cleaned else cleaned := by
  simp only [concludeRun] at concluded
  split at concluded
  · simp at concluded
  · rename_i orphanRecords cleaned removed
    cases concluded
    exact ⟨cleaned, removed, rfl, rfl, rfl, rfl, rfl⟩

theorem concludeRun_extends {inputAlreadyFiltered : Bool} {orphanRounds : Nat}
    {allTaskGroups taskGroups : List TaskGroup} {run : RunResult (World σ)} {result : ExecuteResult σ}
    (concluded : concludeRun host config inputAlreadyFiltered orphanRounds allTaskGroups taskGroups run =
      some result) : Extends run.world result.world := by
  obtain ⟨cleaned, removed, _, _, _, _, left⟩ := concludeRun_cases concluded
  have recorded := recordHistory_touches host config run.records run.world
  have owned := reconcileInstalledOwnership_touches host config allTaskGroups taskGroups run.records
    (recordHistory host config run.records run.world)
  have subtracted := subtractDependencyOwnership_touches host config run.records
    (reconcileInstalledOwnership host config allTaskGroups taskGroups run.records
      (recordHistory host config run.records run.world))
  have reached := ((recorded.trans owned).trans subtracted).extends.trans
    (removeOrphanedDependencies_extends removed)
  rw [left]
  split
  · rw [finishTransactions_calls]
    exact ⟨reached.calls, reached.gatewayCalls⟩
  · exact reached

/-- The part of a call that runs groups: where it starts, and where it ends. -/
structure MainPass (host : Host σ) (config : ExecutionConfig) (graph : Graph) (script : ExecuteScript)
    (world : World σ) (result : ExecuteResult σ) (opened : World σ) (run : RunResult (World σ)) :
    Prop where
  before : Extends world opened
  ran : ParallelTaskScheduler.run config.stopOnFirstFailure
    (executeTaskGroup host config opened.activeRunId) config.platform host.resolvePluginName
    result.taskGroups (some graph) config.jobs script.events opened = some run
  log : result.log = run.log
  records : result.records = run.records
  accepted : result.ok = result.allRecords.all isAccepted
  behind : Extends run.world result.world

theorem mainPass_of_stages {inputAlreadyFiltered : Bool} {graph : Graph} {script : ExecuteScript}
    {world opened : World σ} {result : ExecuteResult σ} {run : RunResult (World σ)}
    (created : openRun host config result.taskGroups
      (plannedGroups host config inputAlreadyFiltered graph script.sorted world).2 = some opened)
    (ran : ParallelTaskScheduler.run config.stopOnFirstFailure
      (executeTaskGroup host config opened.activeRunId) config.platform host.resolvePluginName
      result.taskGroups (some graph) config.jobs script.events opened = some run)
    (concluded : concludeRun host config inputAlreadyFiltered script.orphanRounds result.allTaskGroups
      result.taskGroups run = some result) :
    MainPass host config graph script world result opened run := by
  obtain ⟨_, _, records, log, _, accepted, _⟩ := concludeRun_cases concluded
  have filtered :=
    (plannedGroups_touches host config inputAlreadyFiltered graph script.sorted world).history.extends
  refine ⟨filtered.trans ?_, ran, log, records, accepted, concludeRun_extends concluded⟩
  rw [openRun_world created]
  exact ⟨List.prefix_refl _, List.prefix_refl _⟩

theorem executeGraph_mainPass {inputAlreadyFiltered : Bool} {graph : Graph} {script : ExecuteScript}
    {world : World σ} {result : ExecuteResult σ}
    (done : executeGraph host config inputAlreadyFiltered graph script world = some result) :
    (result.log = [] ∧ result.ok = false) ∨
      ∃ opened run, MainPass host config graph script world result opened run := by
  obtain ⟨_, _, unopened | ⟨opened, run, created, ran, concluded⟩⟩ := executeGraph_cases done
  · exact Or.inl ⟨unopened.2.1, unopened.1⟩
  · exact Or.inr ⟨opened, run, mainPass_of_stages created ran concluded⟩

theorem taskGroupOf_task {platform : Platform} {resolvePluginName : String → String}
    {groups : List TaskGroup} {graph : Option Graph} {index : Nat} {group : TaskGroup}
    (found : groups[index]? = some group) :
    (taskGroupOf (createPlans platform resolvePluginName groups graph) index).task = group.task := by
  have tasks := congrArg (·[index]?) (createPlans_tasks platform resolvePluginName groups graph)
  simp only [planTasks, List.getElem?_map, found, Option.map_some, Option.map_eq_some_iff] at tasks
  obtain ⟨plan, listed, same⟩ := tasks
  rw [taskGroupOf, List.getD_eq_getElem?_getD, listed]
  exact same

/-- The consumers noted on a group play no part in its execution. -/
theorem executeTaskGroup_congr {runId : String} {left right : TaskGroup} (same : left.task = right.task) :
    executeTaskGroup host config runId left = executeTaskGroup host config runId right := by
  have insensitive : ∀ group : TaskGroup, executeTaskGroup host config runId group.task =
      executeTaskGroup host config runId group := fun group => rfl
  rw [← insensitive left, same, insensitive right]

/-- The records of a planned group stem from an execution of that group in the main pass. -/
theorem MainPass.execution {graph : Graph} {script : ExecuteScript} {world opened : World σ}
    {result : ExecuteResult σ} {run : RunResult (World σ)}
    (main : MainPass host config graph script world result opened run)
    {index : Nat} {group : TaskGroup} {records : List TransactionRecord}
    (found : result.taskGroups[index]? = some group) (completed : .completed index records ∈ result.log) :
    ∃ before after, Extends world before ∧
      GroupExecution host config opened.activeRunId group before records after ∧
      Extends after result.world := by
  obtain ⟨_, ranBetween⟩ := runPlans_worlds Extends.refl (fun _ _ _ => Extends.trans)
    (executeTaskGroup_extends host config opened.activeRunId) main.ran
  rw [main.log] at completed
  obtain ⟨before, reached, returned, left⟩ := ranBetween index records completed
  rw [executeTaskGroup_congr (taskGroupOf_task found)] at returned left
  exact ⟨before, _, main.before.trans reached, executeTaskGroup_cases (Prod.ext returned rfl),
    left.trans main.behind⟩

/-- The records of the main pass are those of its history, group by group. -/
theorem MainPass.records_eq {graph : Graph} {script : ExecuteScript} {world opened : World σ}
    {result : ExecuteResult σ} {run : RunResult (World σ)}
    (main : MainPass host config graph script world result opened run) :
    (completedIndices result.log).Nodup ∧
      result.records = (List.range result.taskGroups.length).flatMap (recordsIn result.log) := by
  obtain ⟨length, consistent, _⟩ :=
    createPlans_spec config.platform host.resolvePluginName result.taskGroups graph
  have ran := main.ran
  obtain ⟨once, listed⟩ := runPlans_records consistent ran
  rw [main.log, main.records, listed, length]
  exact ⟨once, rfl⟩

/-- Every record of the main pass stems from an execution of a planned group. -/
theorem MainPass.record_execution {graph : Graph} {script : ExecuteScript} {world opened : World σ}
    {result : ExecuteResult σ} {run : RunResult (World σ)}
    (main : MainPass host config graph script world result opened run)
    {record : TransactionRecord} (member : record ∈ result.records) :
    ∃ group ∈ result.taskGroups, ∃ before records after,
      GroupExecution host config opened.activeRunId group before records after ∧ record ∈ records := by
  rw [main.records_eq.2] at member
  obtain ⟨index, bound, reported⟩ := List.mem_flatMap.mp member
  rw [List.mem_range] at bound
  obtain ⟨records, completed, present⟩ := mem_recordsIn.1 reported
  obtain ⟨before, after, _, execution, _⟩ :=
    main.execution (List.getElem?_eq_getElem bound) completed
  exact ⟨_, List.getElem_mem bound, before, records, after, execution, present⟩

end Calls

end ReqPack.Executor
