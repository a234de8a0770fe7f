import ReqPack.Scheduler.Gating
import ReqPack.Executor.Journal
import ReqPack.Executor.Installed

/-! # Dispatching a task group

`Executer::executeTaskGroup` and `TransactionalRunner::runTaskGroup`.  Everything
outside the executor (plugins, gateway, clock) is a `Host` over a state of its
own; every call that can change a system is written into `calls` with its result.
-/

namespace ReqPack.Executor

open ReqPack.Data ReqPack.Core ReqPack.Scheduler

/-- The parts of `PluginCallContext` that differ from call to call. -/
structure PluginContext where
  flags : List String := []
  currentItemId : String := ""
deriving Repr, DecidableEq

inductive PluginCall where
  | install (system : String) (context : PluginContext) (packages : List Package)
  | installLocal (system : String) (context : PluginContext) (path : String)
  | remove (system : String) (context : PluginContext) (packages : List Package)
  | update (system : String) (context : PluginContext) (packages : List Package)
  | pack (system : String) (context : PluginContext) (path : String)
deriving Repr, DecidableEq

/-- The packages a call names. -/
def PluginCall.packages : PluginCall → List Package
  | .install _ _ packages => packages
  | .remove _ _ packages => packages
  | .update _ _ packages => packages
  | .installLocal _ _ _ => []
  | .pack _ _ _ => []

structure PluginEvent where
  name : String
  payload : String
deriving Repr, DecidableEq

structure Host (σ : Type) where
  resolvePluginName : String → String
  isGatewaySystem : String → Bool
  /-- the kinds of the findings of `executeGatewayRequest` -/
  executeGatewayRequest : ActionType → String → List Package → σ → List String × σ
  /-- `getPlugin` returned a plugin -/
  hasPlugin : σ → String → Bool
  loadPlugin : σ → String → Bool
  supportsPack : σ → String → Bool
  perform : PluginCall → σ → Bool × σ
  getMissingPackages : String → List Package → σ → List Package × σ
  takeRecentEvents : String → σ → List PluginEvent × σ
  /-- names and versions `list` returns -/
  listPackages : String → σ → List (String × String) × σ
  /-- the dependency packages of the installed bundle, if there is one -/
  bundleDependencies : σ → String → Option (List Package)
  getRequirements : σ → String → List Package
  now : σ → String
  actionCode : ActionType → Nat

/-- A line of the history log, without its time. -/
structure HistoryEvent where
  action : String
  packageName : String
  packageVersion : String
  system : String
  status : RecordStatus
  errorMessage : String
deriving Repr, DecidableEq

structure ExecutionConfig where
  platform : Platform := .posix
  jobs : Nat := 1
  stopOnFirstFailure : Bool := false
  dryRun : Bool := false
  useTransactionDb : Bool := true
  deleteCommittedTransactions : Bool := false
  jsonOutput : Bool := false
  historyManager : Bool := true
  trackInstalled : Bool := true
  historyEnabled : Bool := true
deriving Repr, DecidableEq

/-- Everything an executor can change. -/
structure World (σ : Type) where
  plugins : σ
  /-- plugin calls with their results, oldest first -/
  calls : List (PluginCall × Bool) := []
  /-- requests handed to the security gateway, with their results -/
  gatewayCalls : List ((ActionType × String × List Package) × Bool) := []
  journal : Journal := {}
  installed : InstalledStore := []
  /-- systems, names and versions that had a package as their owner at some time -/
  ownedOnce : List (String × String × String) := []
  activeRunId : String := ""
  /-- the history log, oldest event first -/
  history : List HistoryEvent := []

section Records

def makeRecord (group : TaskGroup) (runId : String) (status : RecordStatus) (errorMessage : String)
    (package : Package) : TransactionRecord :=
  { runId := runId, system := group.system, action := group.action, packageName := package.name,
    packageVersion := package.version, status := status, errorMessage := errorMessage }

def buildSuccessRecords (group : TaskGroup) (runId : String) : List TransactionRecord :=
  group.packages.map (makeRecord group runId .success "")

def buildFailureRecords (group : TaskGroup) (runId errorMessage : String) : List TransactionRecord :=
  group.packages.map (makeRecord group runId .failed errorMessage)

end Records

section Dispatch

variable {σ : Type} (host : Host σ) (config : ExecutionConfig)

def buildPluginContext (group : TaskGroup) : PluginContext :=
  { flags := group.flags
    currentItemId :=
      if group.usesLocalTarget then group.system ++ ":local"
      else
        match group.packages with
        | [package] => packageItemId group.system package
        | _ => "" }

/-- Make a plugin call and write it down. -/
def performCall (call : PluginCall) (world : World σ) : Bool × World σ :=
  let result := host.perform call world.plugins
  (result.1, { world with plugins := result.2, calls := world.calls ++ [(call, result.1)] })

/-- `dispatchTaskGroupToSecurityGateway`. -/
def dispatchTaskGroupToSecurityGateway (group : TaskGroup) (world : World σ) : Bool × World σ :=
  let result := host.executeGatewayRequest group.action group.system group.packages world.plugins
  let ok := !result.1.contains "sync_error"
  (ok, { world with
    plugins := result.2
    gatewayCalls := world.gatewayCalls ++ [((group.action, group.system, group.packages), ok)] })

/-- The plugin a group is dispatched to: the preloaded one, or the one of its system. -/
def pluginOf (group : TaskGroup) (world : World σ) : Option String :=
  match group.plugin with
  | some plugin => some plugin
  | none => if host.hasPlugin world.plugins group.system then some group.system else none

/-- The call `dispatchTaskGroupToPlugin` makes, if the action has one. -/
def pluginCallFor (group : TaskGroup) (plugin : String) (supportsPack : Bool) : Option PluginCall :=
  match group.action with
  | .install | .ensure =>
      if group.usesLocalTarget then
        some (.installLocal plugin (buildPluginContext group) group.localPath)
      else some (.install plugin (buildPluginContext group) group.packages)
  | .remove => some (.remove plugin (buildPluginContext group) group.packages)
  | .update => some (.update plugin (buildPluginContext group) group.packages)
  | .pack => if supportsPack then some (.pack plugin (buildPluginContext group) group.localPath) else none
  | _ => none

/-- `dispatchTaskGroupToPlugin`. -/
def dispatchTaskGroupToPlugin (group : TaskGroup) (world : World σ) : Bool × World σ :=
  if host.isGatewaySystem group.system then dispatchTaskGroupToSecurityGateway host group world
  else
    match pluginOf host group world with
    | none => (false, world)
    | some plugin =>
        match pluginCallFor group plugin (host.supportsPack world.plugins plugin) with
        | none => (false, world)
        | some call => performCall host call world

/-- Which packages a failed call left in their desired state after all. -/
def splitByMissing (group : TaskGroup) (world : World σ) : (List Package × List Package) × World σ :=
  if actionUsesMissingPackageFilter group.action && host.hasPlugin world.plugins group.system then
    let asked := host.getMissingPackages group.system group.packages world.plugins
    let missing := fun package => asked.1.any fun other => samePackage other package
    ((group.packages.filter fun package => !missing package, group.packages.filter missing),
      { world with plugins := asked.2 })
  else (([], group.packages), world)

/-- Packages named by an `unavailable` event of the plugin. -/
def takeUnavailable (group : TaskGroup) (world : World σ) : List String × World σ :=
  if host.hasPlugin world.plugins group.system then
    let events := host.takeRecentEvents group.system world.plugins
    ((events.1.filter fun event => event.name == "unavailable" && !event.payload.isEmpty).map (·.payload),
      { world with plugins := events.2 })
  else ([], world)

/-- The part of `runTaskGroup` behind a call that failed. -/
def settleFailedCall (group : TaskGroup) (runId : String) (world : World σ) :
    List TransactionRecord × World σ :=
  let unavailable := takeUnavailable host group world
  let parts := splitByMissing host group unavailable.2
  (parts.1.1.map (makeRecord group runId .success "") ++ parts.1.2.map (fun package =>
      makeRecord group runId .failed
        (if unavailable.1.contains (packageRequestSpec package) then "package unavailable"
          else "plugin action failed") package),
    parts.2)

/-- `TransactionalRunner::runTaskGroup`. -/
def runTaskGroup (group : TaskGroup) (runId : String) (world : World σ) :
    List TransactionRecord × World σ :=
  if group.usesLocalTarget then
    let dispatched := dispatchTaskGroupToPlugin host group world
    (if dispatched.1 then buildSuccessRecords group runId
      else buildFailureRecords group runId "plugin action failed", dispatched.2)
  else
    match world.journal.updateItemsStatus host.actionCode runId group.packages .running "" with
    | none => (buildFailureRecords group runId "transaction update failed", world)
    | some journal =>
        let dispatched := dispatchTaskGroupToPlugin host group { world with journal := journal }
        if dispatched.1 then (buildSuccessRecords group runId, dispatched.2)
        else settleFailedCall host group runId dispatched.2

/-- A Windows build does not install through Nix. -/
def softSkipsNix (group : TaskGroup) : Bool :=
  config.platform.softSkipNixInstalls && isInstallLikeAction group.action &&
    isNixInstallSystem (host.resolvePluginName group.system)

/-- `Executer::executeTaskGroup`. -/
def executeTaskGroup (runId : String) (group : TaskGroup) (world : World σ) :
    List TransactionRecord × World σ :=
  if group.packages.isEmpty && !group.usesLocalTarget then ([], world)
  else if softSkipsNix host config group then ([], world)
  else if host.isGatewaySystem group.system then
    let dispatched := dispatchTaskGroupToSecurityGateway host group world
    (if dispatched.1 then buildSuccessRecords group runId
      else buildFailureRecords group runId "security gateway action failed", dispatched.2)
  else if group.pluginLoadFailed || (group.plugin.isNone &&
      !(host.hasPlugin world.plugins group.system && host.loadPlugin world.plugins group.system)) then
    (buildFailureRecords group runId "plugin load failed", world)
  else if config.dryRun then (buildSuccessRecords group runId, world)
  else if config.useTransactionDb && !runId.isEmpty then runTaskGroup host group runId world
  else
    let dispatched := dispatchTaskGroupToPlugin host group world
    (if dispatched.1 then buildSuccessRecords group runId
      else buildFailureRecords group runId "plugin action failed", dispatched.2)

end Dispatch

/-- A host whose plugins are all there and do what they are asked to do. -/
def obligingHost (gateway : String → Bool) : Host Unit where
  resolvePluginName := id
  isGatewaySystem := gateway
  executeGatewayRequest := fun _ _ _ world => ([], world)
  hasPlugin := fun _ _ => true
  loadPlugin := fun _ _ => true
  supportsPack := fun _ _ => true
  perform := fun _ world => (true, world)
  getMissingPackages := fun _ packages world => (packages, world)
  takeRecentEvents := fun _ world => ([], world)
  listPackages := fun _ world => ([], world)
  bundleDependencies := fun _ _ => none
  getRequirements := fun _ _ => []
  now := fun _ => ""
  actionCode := fun _ => 0

end ReqPack.Executor
