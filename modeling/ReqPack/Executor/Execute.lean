import ReqPack.Executor.HistorySync

/-! # One call of the executor

`Executer::execute`: recovery of an interrupted run, the task groups of the graph,
their execution, and everything that is derived from their records.
-/

namespace ReqPack.Executor

open ReqPack.Data ReqPack.Core ReqPack.Scheduler

section Groups

variable {σ : Type} (host : Host σ)

/-- `TaskGraphBuilder::filterExecutable` for one group. -/
def filterGroup (group : TaskGroup) (world : World σ) : Option TaskGroup × World σ :=
  if group.packages.isEmpty then (none, world)
  else if !actionUsesMissingPackageFilter group.action then (some group, world)
  else if host.isGatewaySystem group.system then (some group, world)
  else if !(host.hasPlugin world.plugins group.system && host.loadPlugin world.plugins group.system) then
    (some group, world)
  else if group.usesLocalTarget then (some group, world)
  else
    let asked := host.getMissingPackages group.system
      (group.packages.map fun package =>
        if package.action = .unknown then { package with action := group.action } else package)
      world.plugins
    (if asked.1.isEmpty then none else some { group with packages := asked.1 },
      { world with plugins := asked.2 })

/-- `TaskGraphBuilder::filterExecutable`. -/
def filterExecutable (groups : List TaskGroup) (world : World σ) : List TaskGroup × World σ :=
  groups.foldl (fun kept group =>
    let filtered := filterGroup host group kept.2
    (kept.1 ++ filtered.1.toList, filtered.2)) ([], world)

/-- `TaskGraphBuilder::preload` for one group. -/
def preloadGroup (world : World σ) (group : TaskGroup) : TaskGroup :=
  if host.isGatewaySystem group.system then { group with plugin := none, pluginLoadFailed := false }
  else if host.hasPlugin world.plugins group.system && host.loadPlugin world.plugins group.system then
    { group with plugin := some group.system, pluginLoadFailed := false }
  else { group with plugin := none, pluginLoadFailed := true }

def preload (groups : List TaskGroup) (world : World σ) : List TaskGroup :=
  groups.map (preloadGroup host world)

end Groups

section Satisfied

/-- The version shown for a package that was satisfied already. -/
def satisfiedVersion (installedState : List InstalledEntry) (system : String) (package : Package) :
    String :=
  if package.version.isEmpty then
    ((installedState.find? fun entry => entry.system == system && entry.name == package.name).map
      (·.version)).getD package.version
  else package.version

/-- `Executer::buildAlreadySatisfiedRecords`; packages are compared by system and name. -/
def buildAlreadySatisfiedRecords (installedState : List InstalledEntry)
    (allTaskGroups executableTaskGroups : List TaskGroup) : List TransactionRecord :=
  let executable := executableTaskGroups.flatMap fun group =>
    group.packages.map fun package => (group.system, package.name)
  (allTaskGroups.filter fun group =>
    actionUsesMissingPackageFilter group.action && !group.usesLocalTarget).flatMap fun group =>
      (group.packages.filter fun package => !executable.contains (group.system, package.name)).map
        fun package =>
          { system := group.system, action := group.action, packageName := package.name,
            packageVersion := satisfiedVersion installedState group.system package, status := .skipped }

end Satisfied

/-- What a call of `Executer::execute` leaves behind. -/
structure ExecuteResult (σ : Type) where
  ok : Bool
  /-- records of the executed groups -/
  records : List TransactionRecord := []
  /-- records of the orphan removals -/
  orphanRecords : List TransactionRecord := []
  /-- records of packages that were satisfied already, in JSON mode -/
  satisfiedRecords : List TransactionRecord := []
  /-- the history of the main pass -/
  log : List Observation := []
  /-- the groups of the graph -/
  allTaskGroups : List TaskGroup := []
  /-- the groups that were left to execute -/
  taskGroups : List TaskGroup := []
  world : World σ

/-- All records, in the order of the JSON items. -/
def ExecuteResult.allRecords {σ : Type} (result : ExecuteResult σ) : List TransactionRecord :=
  result.records ++ result.orphanRecords ++ result.satisfiedRecords

/-- What the environment decides in one call: what `boost::topological_sort` wrote,
how the workers interleave, and how many rounds of orphan removal to follow. -/
structure ExecuteScript where
  sorted : List Nat
  events : List SchedulerEvent := []
  orphanRounds : Nat

section Execute

variable {σ : Type} (host : Host σ) (config : ExecutionConfig)

def isAccepted (record : TransactionRecord) : Bool :=
  record.status == .success || record.status == .skipped

/-- Open the run for the groups that are left, if there are any. -/
def openRun (groups : List TaskGroup) (world : World σ) : Option (World σ) :=
  if config.useTransactionDb && !groups.isEmpty then
    (world.journal.createRun host.actionCode (host.now world.plugins) (collectPackages groups)
      ((groups.head?.map (·.flags)).getD [])).map fun created =>
        { world with journal := created.2, activeRunId := created.1 }
  else some world

/-- Everything `execute` does with the records of the main pass. -/
def concludeRun (inputAlreadyFiltered : Bool) (orphanRounds : Nat)
    (allTaskGroups taskGroups : List TaskGroup) (run : RunResult (World σ)) :
    Option (ExecuteResult σ) :=
  let recorded := recordHistory host config run.records run.world
  let owned := reconcileInstalledOwnership host config allTaskGroups taskGroups run.records recorded
  let subtracted := subtractDependencyOwnership host config run.records owned
  match removeOrphanedDependencies host config orphanRounds run.records subtracted with
  | none => none
  | some (orphanRecords, cleaned) =>
      let satisfied :=
        if config.jsonOutput && !inputAlreadyFiltered then
          buildAlreadySatisfiedRecords
            (if config.historyManager then cleaned.installed.loadInstalledState else [])
            allTaskGroups taskGroups
        else []
      let allRecords := run.records ++ orphanRecords ++ satisfied
      some
        { ok := allRecords.all isAccepted
          records := run.records
          orphanRecords := orphanRecords
          satisfiedRecords := satisfied
          log := run.log
          allTaskGroups := allTaskGroups
          taskGroups := taskGroups
          world :=
            if config.useTransactionDb then finishTransactions host config allRecords cleaned
            else cleaned }

/-- The part of `execute` behind the recovery. -/
def executeGraph (inputAlreadyFiltered : Bool) (graph : Graph) (script : ExecuteScript)
    (world : World σ) : Option (ExecuteResult σ) :=
  let allTaskGroups := createFromGraph config.platform graph script.sorted
  let filtered :=
    if inputAlreadyFiltered then (allTaskGroups, world) else filterExecutable host allTaskGroups world
  let taskGroups := preload host filtered.1 filtered.2
  match openRun host config taskGroups filtered.2 with
  | none => some { ok := false, allTaskGroups := allTaskGroups, taskGroups := taskGroups, world := filtered.2 }
  | some opened =>
      match ParallelTaskScheduler.run config.stopOnFirstFailure
          (executeTaskGroup host config opened.activeRunId) config.platform host.resolvePluginName
          taskGroups (some graph) config.jobs script.events opened with
      | none => none
      | some run => concludeRun host config inputAlreadyFiltered script.orphanRounds allTaskGroups taskGroups run

/-- `Executer::execute`. -/
def execute (inputAlreadyFiltered : Bool) (graph : Graph) (script : ExecuteScript) (world : World σ) :
    Option (ExecuteResult σ) :=
  if config.useTransactionDb then
    let recovered := recoverInterruptedRun host config world
    if recovered.journal.getActiveRun.isSome then some { ok := false, world := recovered }
    else
      executeGraph host config inputAlreadyFiltered graph script { recovered with activeRunId := "" }
  else executeGraph host config inputAlreadyFiltered graph script world

end Execute

section Examples

def interpreterAndModule : List Package :=
  [{ action := .install, system := "apt", name := "python" },
    { action := .install, system := "pip", name := "numpy" }]

/-- A module and the interpreter it needs. -/
def interpreterForModule : Graph where
  packages := interpreterAndModule
  edges := [(0, 1)]
  bounded := by decide

/-- A host whose plugins install everything but the interpreter. -/
def brokenInterpreter : Host Unit :=
  { obligingHost fun _ => false with
    perform := fun call world => (call.packages.all fun package => package.system != "apt", world)
    now := fun _ => "t" }

end Examples

end ReqPack.Executor
