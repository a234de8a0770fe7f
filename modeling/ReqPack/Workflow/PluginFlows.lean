import ReqPack.Planner.Dependencies
import ReqPack.Registry.Runtime

/-! # The flows for plugin wrappers and system-wide updates

`OrchestratorDispatcher::run` hands requests without packages to one of four flows.
They act on the registry, download plugins, and call plugins and the security gateway;
the dry-run setting is theirs to consult.
-/

namespace ReqPack.Workflow.PluginFlows

open ReqPack.Data ReqPack.Core ReqPack.Planner ReqPack.Registry

/-! ## Which flow -/

def allFlag : String := "all"

def pluginRefreshAllFlag : String := "__reqpack-internal-plugin-refresh-all"

def requestTargetsPluginWrapperRefresh (request : Request) : Bool :=
  request.action == .update && !request.system.isEmpty && request.system != "sys" && request.system != "rqp" &&
    !request.usesLocalTarget && request.packages.isEmpty &&
    (!request.flags.contains allFlag || request.flags.contains pluginRefreshAllFlag)

def requestTargetsSystemWidePackageUpdate (request : Request) : Bool :=
  request.action == .update && !request.system.isEmpty && request.system != "sys" && !request.usesLocalTarget &&
    request.packages.isEmpty && request.flags.contains allFlag && !request.flags.contains pluginRefreshAllFlag

def requestTargetsPluginInstall (request : Request) : Bool :=
  request.action == .install && !request.system.isEmpty && !request.usesLocalTarget && request.packages.isEmpty

def requestTargetsPluginRemove (request : Request) : Bool :=
  request.action == .remove && !request.system.isEmpty && request.system != "sys" && request.system != "rqp" &&
    !request.usesLocalTarget && request.packages.isEmpty

inductive PluginFlow where
  | systemWidePackageUpdates
  | pluginWrapperRefresh
  | pluginInstall
  | pluginRemove
deriving Repr, DecidableEq

/-- The part of `OrchestratorDispatcher::run` that picks one of the four flows. -/
def selectFlow (requests : List Request) : Option PluginFlow :=
  if requests.isEmpty then none
  else if requests.all requestTargetsSystemWidePackageUpdate then some .systemWidePackageUpdates
  else if requests.all requestTargetsPluginWrapperRefresh then some .pluginWrapperRefresh
  else if requests.all requestTargetsPluginInstall then some .pluginInstall
  else if requests.all requestTargetsPluginRemove then some .pluginRemove
  else none

/-! ## What the flows act on -/

/-- What happens outside the registry. -/
inductive FlowEffect where
  | filesWritten (system : String)
  | filesRemoved (system : String)
  | pluginCalled (action : ActionType) (system : String)
  | gatewayDispatched (system : String)
deriving Repr, DecidableEq

structure FlowState (δ : Type) where
  table : PluginTable δ
  effects : List FlowEffect

/-- A task of `updateSystems`, with the instance that was preloaded; none when the load
failed or the gateway handles the system. -/
structure UpdateTask where
  system : String
  flags : List String
  plugin : Option Nat
deriving Repr, DecidableEq

/-- What planner and validator do to plugins: both ask the registry, and the planner
downloads plugins that are missing. -/
inductive PlanningCall where
  | registry (call : PluginCall)
  | download (system : String)
deriving Repr, DecidableEq

/-- The configuration, the registry, and what else the flows ask. -/
structure FlowEnv (δ : Type) where
  registry : RuntimeEnv δ
  dryRun : Bool
  downloaderEnabled : Bool := true
  ensureReady : δ → Bool × δ
  /-- `Downloader::resolve_plugin_name` -/
  downloaderName : δ → String → String
  /-- `materialize_script_record_bundle`, for the plugin directory of a name -/
  writeRecordBundle : δ → String → RegistryRecord → Bool × δ
  /-- `download_to_path`, from a source to the script of a name: whether it succeeds, and
  whether it touches the plugin directory -/
  downloadToPath : δ → String → String → Bool × Bool × δ
  readScript : δ → String → String
  isValidPluginScript : String → Bool
  writeScriptBundle : δ → String → RegistryRecord → Bool × δ
  removeScript : δ → String → δ
  removeBundle : δ → String → δ
  cacheScript : δ → String → String → δ
  pluginBundleExists : δ → String → Bool
  /-- the bundle of an installed plugin: its directory, and its dependencies by system -/
  findInstalled : δ → String → Option (String × List (String × List Package))
  removeAll : δ → String → Bool × δ
  callPlugin : δ → ActionType → Nat → List String → List Package → Bool × δ
  /-- `RequestResolutionService`; none when the request cannot be resolved -/
  resolveRequest : δ → Request → Option Request
  /-- the packages a plugin lists for a request, as specifiers -/
  listPackages : δ → Nat → Request → List String × δ
  /-- planning and validating: what is done to plugins on the way, and the verdict -/
  planAndValidate : PluginTable δ → List Request → List PlanningCall × Bool
  isGatewaySystem : String → Bool
  dispatchGateway : δ → String → Bool × δ
  /-- the tasks that get their turn, in this order: with several workers and a failure some
  may be left out -/
  turns : List UpdateTask → List UpdateTask

section Flows

variable {δ : Type} (env : FlowEnv δ)

namespace FlowState

def withWorld (state : FlowState δ) (world : δ) : FlowState δ :=
  { state with table := { state.table with world := world } }

def withTable (state : FlowState δ) (table : PluginTable δ) : FlowState δ := { state with table := table }

def effect (state : FlowState δ) (effect : FlowEffect) : FlowState δ := { state with effects := state.effects ++ [effect] }

end FlowState

def callRegistry (state : FlowState δ) (call : PluginCall) : FlowState δ :=
  state.withTable (state.table.call env.registry call)

/-! ## Downloading -/

/-- The downloaded script becomes a bundle, or is removed again. -/
def keepScript (state : FlowState δ) (resolvedSystem : String) (record : RegistryRecord) : Bool × FlowState δ :=
  let script := env.readScript state.table.world resolvedSystem
  let downloaded := { record with script := script, bootstrapScript := "", bundleSource := false, bundlePath := "" }
  if !env.isValidPluginScript script || !matchesExpectedHashes (env.registry.registryEnv state.table.world) downloaded then
    (false, (state.withWorld (env.removeScript state.table.world resolvedSystem)).effect (.filesRemoved resolvedSystem))
  else
    let written := env.writeScriptBundle state.table.world resolvedSystem downloaded
    let state := (state.withWorld written.2).effect (.filesWritten resolvedSystem)
    if !written.1 then
      (false, (state.withWorld (env.removeBundle state.table.world resolvedSystem)).effect (.filesRemoved resolvedSystem))
    else (true, state.withWorld (env.cacheScript state.table.world resolvedSystem script))

/-- `Downloader::downloadPlugin` for a record without a script. -/
def downloadScript (state : FlowState δ) (resolvedSystem : String) (record : RegistryRecord) : Bool × FlowState δ :=
  let moved := env.downloadToPath state.table.world record.source resolvedSystem
  let state := state.withWorld moved.2.2
  let state := if moved.2.1 then state.effect (.filesWritten resolvedSystem) else state
  if !moved.1 then (false, state) else keepScript env state resolvedSystem record

/-- The record a download starts from. -/
def downloadRecord (world : δ) (system resolvedSystem : String) : Option RegistryRecord :=
  (env.registry.resolveRecord world (toLowerCopy system)).or
    (if resolvedSystem != system then env.registry.resolveRecord world (toLowerCopy resolvedSystem) else none)

/-- The end of `Downloader::downloadPlugin`, with the record as it is now. -/
def writeDownload (state : FlowState δ) (resolvedSystem : String) (record : RegistryRecord) : Bool × FlowState δ :=
  if record.script.isEmpty then downloadScript env state resolvedSystem record
  else if !matchesExpectedHashes (env.registry.registryEnv state.table.world) record then (false, state)
  else
    let written := env.writeRecordBundle state.table.world resolvedSystem record
    (written.1, (state.withWorld written.2).effect (.filesWritten resolvedSystem))

/-- The part of `Downloader::downloadPlugin` behind the lookup of the record. -/
def downloadRecorded (state : FlowState δ) (resolvedSystem : String) (record : RegistryRecord) : Bool × FlowState δ :=
  if record.source.isEmpty then (false, state)
  else if !passesThinLayerTrust (env.registry.registryEnv state.table.world) record then (false, state)
  else
    let current := PluginTable.currentRecord env.registry state.table.world resolvedSystem record
    let state := state.withWorld current.2
    match current.1 with
    | none => (false, state)
    | some record => writeDownload env state resolvedSystem record

def downloadPlugin (state : FlowState δ) (system : String) : Bool × FlowState δ :=
  if !env.downloaderEnabled then (false, state)
  else
    let ready := env.ensureReady state.table.world
    let state := state.withWorld ready.2
    if !ready.1 then (false, state)
    else
      let resolvedSystem := env.downloaderName state.table.world system
      match downloadRecord env state.table.world system resolvedSystem with
      | none => (false, state)
      | some record => downloadRecorded env state resolvedSystem record

/-! ## Wrappers -/

/-- The loop body of `runPluginWrapperRefresh`. -/
def refreshWrapper (state : FlowState δ) (request : Request) : Bool × FlowState δ :=
  let refreshed := state.table.refreshPlugin env.registry request.system true
  let state := state.withTable refreshed.2
  if !refreshed.1 then (false, state)
  else
    let loaded := state.table.loadPlugin env.registry request.system
    (loaded.1, state.withTable loaded.2)

/-- The loop body of `runPluginInstallRequests`. -/
def installWrapper (state : FlowState δ) (request : Request) : Bool × FlowState δ :=
  let resolvedSystem := env.registry.resolvePluginName state.table.world request.system
  if resolvedSystem.isEmpty then (false, state)
  else if env.pluginBundleExists state.table.world resolvedSystem then (true, state)
  else
    let downloaded := downloadPlugin env state resolvedSystem
    if !downloaded.1 then downloaded
    else
      let state := callRegistry env downloaded.2 (.ensurePluginsDiscovered [request.system])
      (env.pluginBundleExists state.table.world resolvedSystem, state)

/-- A plugin that is there, loads, and still is there. -/
def readyPlugin (state : FlowState δ) (system : String) : Option Nat × FlowState δ :=
  let found := state.table.getPlugin env.registry system
  let state := state.withTable found.2
  if found.1.isNone then (none, state)
  else
    let loaded := state.table.loadPlugin env.registry system
    let state := state.withTable loaded.2
    if !loaded.1 then (none, state)
    else
      let again := state.table.getPlugin env.registry system
      (again.1, state.withTable again.2)

/-- The dependencies of a bundle, system by system, up to the first failure. -/
def removeDependencies (flags : List String) : List (String × List Package) → FlowState δ → Bool × FlowState δ
  | [], state => (true, state)
  | (system, packages) :: groups, state =>
      let ready := readyPlugin env state system
      match ready.1 with
      | none => (false, ready.2)
      | some held =>
          let removed := env.callPlugin ready.2.table.world .remove held flags packages
          let state := (ready.2.withWorld removed.2).effect (.pluginCalled .remove system)
          if !removed.1 then (false, state) else removeDependencies flags groups state

/-- The loop body of `runPluginRemoveRequests`. -/
def removeWrapper (state : FlowState δ) (request : Request) : Bool × FlowState δ :=
  let resolvedSystem := env.registry.resolvePluginName state.table.world request.system
  if resolvedSystem.isEmpty then (false, state)
  else
    match env.findInstalled state.table.world resolvedSystem with
    | none => (false, state)
    | some (rootDir, groups) =>
        if env.dryRun then (true, state)
        else
          let removed := removeDependencies env (request.flags ++ ["__reqpack-internal-silent-runtime"]) groups state
          if !removed.1 then removed
          else
            let state := callRegistry env removed.2 (.unloadPlugin resolvedSystem)
            let deleted := env.removeAll state.table.world rootDir
            let state := (state.withWorld deleted.2).effect (.filesRemoved resolvedSystem)
            if !deleted.1 then (false, state)
            else (true, callRegistry env state (.ensurePluginsDiscovered [request.system]))

/-- A loop over the requests: whether all succeeded. -/
def overRequests (body : FlowState δ → Request → Bool × FlowState δ) (requests : List Request) (state : FlowState δ) :
    Bool × FlowState δ :=
  requests.foldl (fun run request => ((body run.2 request).1 && run.1, (body run.2 request).2)) (true, state)

/-! ## System-wide updates -/

/-- `Executer::list`, as specifiers. -/
def listInstalled (state : FlowState δ) (request : Request) : List String × FlowState δ :=
  match env.resolveRequest state.table.world request with
  | none => ([], state)
  | some resolved =>
      let ready := readyPlugin env state resolved.system
      match ready.1 with
      | none => ([], ready.2)
      | some held =>
          let listed := env.listPackages ready.2.table.world held resolved
          (listed.1, ready.2.withWorld listed.2)

/-- The loop body of `expand_system_wide_update_requests`. -/
def expandRequest (run : List Request × FlowState δ) (request : Request) : List Request × FlowState δ :=
  if !requestTargetsSystemWidePackageUpdate request then (run.1 ++ [request], run.2)
  else
    let listed := listInstalled env run.2 request
    (run.1 ++ [{ request with packages := listed.1 }], listed.2)

def planningStep (state : FlowState δ) : PlanningCall → FlowState δ
  | .registry call => callRegistry env state call
  | .download system => (downloadPlugin env state system).2

/-- The tasks of `updateSystems`, before they are preloaded. -/
def updateTasks (state : FlowState δ) (requests : List Request) : List UpdateTask :=
  requests.filterMap fun request =>
    if request.system.isEmpty || request.usesLocalTarget || !request.packages.isEmpty then none
    else
      (env.resolveRequest state.table.world request).map fun resolved =>
        { system := resolved.system, flags := resolved.flags, plugin := none }

/-- The loop body of `preloadTaskGroups`. -/
def preloadTask (run : List UpdateTask × FlowState δ) (task : UpdateTask) : List UpdateTask × FlowState δ :=
  if env.isGatewaySystem task.system then (run.1 ++ [task], run.2)
  else
    let ready := readyPlugin env run.2 task.system
    (run.1 ++ [{ task with plugin := ready.1 }], ready.2)

/-- `executeUpdate`. -/
def executeUpdate (run : Bool × FlowState δ) (task : UpdateTask) : Bool × FlowState δ :=
  if env.isGatewaySystem task.system then
    let dispatched := env.dispatchGateway run.2.table.world task.system
    (dispatched.1 && run.1, (run.2.withWorld dispatched.2).effect (.gatewayDispatched task.system))
  else
    match task.plugin with
    | none => (false, run.2)
    | some held =>
        if env.dryRun then run
        else
          let updated := env.callPlugin run.2.table.world .update held task.flags []
          (updated.1 && run.1, (run.2.withWorld updated.2).effect (.pluginCalled .update task.system))

/-- `Executer::updateSystems`: whether all updates succeeded. -/
def updateSystems (state : FlowState δ) (requests : List Request) : Bool × FlowState δ :=
  let preloaded := (updateTasks env state requests).foldl (preloadTask env) ([], state)
  (env.turns preloaded.1).foldl (executeUpdate env) (true, preloaded.2)

/-- The part of `runSystemWidePackageUpdates` before the updates: false when the validator
blocks them. -/
def validateUpdates (state : FlowState δ) (requests : List Request) : Bool × FlowState δ :=
  let expanded := requests.foldl (expandRequest env) ([], state)
  if expanded.1.any fun request => !request.packages.isEmpty then
    let planned := env.planAndValidate expanded.2.table expanded.1
    (planned.2, planned.1.foldl (planningStep env) expanded.2)
  else (true, expanded.2)

def runSystemWidePackageUpdates (requests : List Request) (state : FlowState δ) : Bool × FlowState δ :=
  let validated := validateUpdates env state requests
  if !validated.1 then validated else updateSystems env validated.2 requests

/-- The flow the dispatcher picks; true stands for the exit code 0. -/
def runFlow (requests : List Request) (state : FlowState δ) : Option PluginFlow → Bool × FlowState δ
  | none => (true, state)
  | some .systemWidePackageUpdates => runSystemWidePackageUpdates env requests state
  | some .pluginWrapperRefresh => overRequests (refreshWrapper env) requests state
  | some .pluginInstall => overRequests (installWrapper env) requests state
  | some .pluginRemove => overRequests (removeWrapper env) requests state

end Flows

end ReqPack.Workflow.PluginFlows
