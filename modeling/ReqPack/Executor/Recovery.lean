import ReqPack.Executor.Dispatch

/-! # The journal in use

Recovery of an interrupted run (`executor_transaction_recovery`) and the writing
of results into the journal (`executor_transaction_state`).
-/

namespace ReqPack.Executor

open ReqPack.Data ReqPack.Core ReqPack.Scheduler

section Results

variable (actionCode : ActionType → Nat)

/-- The four fields a record carries of its package. -/
def matchesRecord (record : TransactionRecord) (package : Package) : Bool :=
  package.action == record.action && package.system == record.system &&
    package.name == record.packageName && package.version == record.packageVersion

/-- The package `writeTransactionResults` rebuilds: the fields a record lacks come
from the first item that agrees with it in the other four. -/
def packageForRecord (runItems : List JournalItem) (record : TransactionRecord) : Package :=
  let package : Package :=
    { action := record.action, system := record.system, name := record.packageName,
      version := record.packageVersion }
  match runItems.find? fun item => matchesRecord record item.package with
  | none => package
  | some item =>
      { package with
        sourcePath := item.package.sourcePath
        localTarget := item.package.localTarget
        flags := item.package.flags }

def recordItemStatus : RecordStatus → ItemStatus
  | .success => .success
  | .failed => .failed
  | .skipped => .skipped

/-- `Executer::writeTransactionResults`. -/
def writeTransactionResults (activeRunId : String) (records : List TransactionRecord)
    (journal : Journal) : Journal :=
  if activeRunId.isEmpty then journal
  else
    let runItems := journal.getRunItems activeRunId
    records.foldl (fun journal record =>
      journal.updateItemStatus actionCode activeRunId (packageForRecord runItems record)
        (recordItemStatus record.status) record.errorMessage) journal

end Results

/-- `Executer::markCommittedTransactions`. -/
def markCommittedTransactions (activeRunId : String) (journal : Journal) : Journal :=
  if activeRunId.isEmpty then journal
  else if (journal.getRunItems activeRunId).all fun item =>
      item.status == .success || item.status == .committed then
    journal.markRunCommitted activeRunId
  else journal.markRunState activeRunId .failed

section Recovery

variable {σ : Type} (host : Host σ) (config : ExecutionConfig)

/-- `Executer::deleteCommittedTransactions`. -/
def deleteCommittedTransactions (world : World σ) : World σ :=
  if world.activeRunId.isEmpty || world.journal.getActiveRun.isSome then world
  else { world with journal := world.journal.deleteRun world.activeRunId, activeRunId := "" }

/-- The calls that follow the execution of recorded groups. -/
def finishTransactions (records : List TransactionRecord) (world : World σ) : World σ :=
  let written := writeTransactionResults host.actionCode world.activeRunId records world.journal
  let marked := { world with journal := markCommittedTransactions world.activeRunId written }
  if config.deleteCommittedTransactions then deleteCommittedTransactions marked else marked

/-- Whether recovery can ask a plugin about an item. -/
def isRecoverable (plugins : σ) (item : JournalItem) : Bool :=
  let resolved := host.resolvePluginName item.package.system
  actionSupportsRecoveryReconciliation item.package.action &&
    host.hasPlugin plugins resolved && host.loadPlugin plugins resolved

def resolveItem (item : JournalItem) : JournalItem :=
  { item with package := { item.package with system := host.resolvePluginName item.package.system } }

/-- The fate of one item once its plugin said what is missing: it stays pending, or
it is settled as done. -/
def reconcileItem (runId : String) (missing : List Package) (found : List JournalItem × World σ)
    (item : JournalItem) : List JournalItem × World σ :=
  if missing.any fun package => samePackage package item.package then (found.1 ++ [item], found.2)
  else
    match found.2.journal.updateItemsStatus host.actionCode runId [item.package] .success "" with
    | none => (found.1 ++ [item], found.2)
    | some journal => (found.1, { found.2 with journal := journal })

/-- The items of one system, checked against the plugin of that system. -/
def reconcileSystem (runId : String) (recoverable : List JournalItem)
    (found : List JournalItem × World σ) (system : String) : List JournalItem × World σ :=
  let items := recoverable.filter fun item => item.package.system == system
  if host.hasPlugin found.2.plugins system then
    let asked := host.getMissingPackages system (items.map (·.package)) found.2.plugins
    items.foldl (reconcileItem host runId asked.1) (found.1, { found.2 with plugins := asked.2 })
  else (found.1 ++ items, found.2)

/-- The systems in the order in which the loop first meets them. -/
def checkedSystems (recoverable : List JournalItem) : List String :=
  recoverable.foldl (fun systems item =>
    if item.package.system ∈ systems then systems else systems ++ [item.package.system]) []

/-- `Executer::reconcileRecoveredItems`. -/
def reconcileRecoveredItems (runId : String) (items : List JournalItem) (world : World σ) :
    List JournalItem × World σ :=
  let recoverable := (items.filter (isRecoverable host world.plugins)).map (resolveItem host)
  (checkedSystems recoverable).foldl (reconcileSystem host runId recoverable)
    (items.filter fun item => !isRecoverable host world.plugins item, world)

/-- `createTaskGroupsFromRecords`, with the flags of the run on every group. -/
def recoveredGroups (flags : List String) (items : List JournalItem) : List TaskGroup :=
  (groupAdjacent (items.map (·.package))).map fun group => { group with flags := flags }

/-- `Executer::recoverPendingTaskGroups`. -/
def recoverPendingTaskGroups (world : World σ) : List TaskGroup × World σ :=
  match world.journal.getActiveRun with
  | none => ([], world)
  | some (runId, run) =>
      if run.state = .committed then ([], world)
      else
        let entered := { world with activeRunId := runId }
        let pending := (world.journal.getRunItems runId).filter fun item => !item.status.settled
        let reconciled := reconcileRecoveredItems host runId pending entered
        if reconciled.1.isEmpty then
          let committed := reconciled.2.journal.markRunCommitted runId
          ([], { reconciled.2 with
            journal := if config.deleteCommittedTransactions then committed.deleteRun runId else committed
            activeRunId := "" })
        else
          (recoveredGroups run.flags reconciled.1,
            { reconciled.2 with journal := reconciled.2.journal.markRunState runId .recovered })

/-- The groups of a recovery run one after the other, without a graph. -/
def executeRecoveredGroups (groups : List TaskGroup) (runId : String) (world : World σ) :
    List TransactionRecord × World σ :=
  let final := runSequential (createPlans config.platform host.resolvePluginName groups none)
    config.stopOnFirstFailure (executeTaskGroup host config runId) world
  (final.records, final.world)

/-- The recovery part of `Executer::execute`. -/
def recoverInterruptedRun (world : World σ) : World σ :=
  let recovered := recoverPendingTaskGroups host config world
  if !recovered.1.isEmpty && !recovered.2.activeRunId.isEmpty then
    let executed := executeRecoveredGroups host config recovered.1 recovered.2.activeRunId recovered.2
    finishTransactions host config executed.1 executed.2
  else recovered.2

end Recovery

end ReqPack.Executor
