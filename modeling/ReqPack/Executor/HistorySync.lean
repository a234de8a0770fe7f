import ReqPack.Executor.Recovery

/-! # Installed state after a run

`executor_history_sync`: refreshing the installed state from the plugins, keeping
the owners of the entries, and removing dependencies nobody owns any more.
-/

namespace ReqPack.Executor

open ReqPack.Data ReqPack.Core ReqPack.Scheduler

variable {σ : Type} (host : Host σ) (config : ExecutionConfig)

def normalizeRequirement (system : String) (dependency : Package) : Package :=
  let acted :=
    if dependency.action = .unknown then { dependency with action := .install } else dependency
  { acted with
    system := host.resolvePluginName (if acted.system.isEmpty then system else acted.system) }

/-- `Executer::normalizedRequirements`: what the plugin of the system asks for. -/
def normalizedRequirements (plugins : σ) (package : Package) : List Package :=
  if package.system.isEmpty || host.isGatewaySystem package.system then []
  else
    match host.bundleDependencies plugins package.system with
    | some dependencies => dependencies.map (normalizeRequirement host package.system)
    | none =>
        if host.hasPlugin plugins package.system && host.loadPlugin plugins package.system then
          (host.getRequirements plugins package.system).map (normalizeRequirement host package.system)
        else []

/-- Entries that have a package among their owners. -/
def dependencyOwned (store : InstalledStore) : List (String × String × String) :=
  (store.filter fun entry => entry.owners.any isDependencyOwner).map fun entry =>
    (entry.system, entry.name, entry.version)

/-- Write the installed state and remember who had a package as owner. -/
def setInstalled (store : InstalledStore) (world : World σ) : World σ :=
  { world with installed := store, ownedOnce := world.ownedOnce ++ dependencyOwned store }

def tracksInstalled : Bool := config.historyManager && config.trackInstalled

/-- `Executer::syncInstalledStateForSystem`. -/
def syncInstalledStateForSystem (system : String) (allowEmpty : Bool) (world : World σ) :
    Bool × World σ :=
  if !tracksInstalled config || system.isEmpty || host.isGatewaySystem system then (false, world)
  else if !(host.hasPlugin world.plugins system && host.loadPlugin world.plugins system) then
    (false, world)
  else
    let listed := host.listPackages system world.plugins
    let entries := (listed.1.filter fun item => !item.1.isEmpty).map fun item =>
      ({ name := item.1, version := item.2, system := system } : InstalledEntry)
    let asked := { world with plugins := listed.2 }
    if entries.isEmpty && !allowEmpty then (false, asked)
    else
      (true, setInstalled
        (world.installed.replaceInstalledState system (host.now listed.2) entries) asked)

/-- The records that make `refreshInstalledState` look at their system. -/
def refreshes (record : TransactionRecord) : Bool :=
  record.status == .success && actionUsesDesiredStateFilter record.action && !record.system.isEmpty

/-- The systems to refresh, in the order of a `std::map`. -/
def refreshTargets (records : List TransactionRecord) : List String :=
  stableSort textLess ((records.filter refreshes).map (·.system)).dedup

/-- `Executer::refreshInstalledState`; only removals may leave a system empty. -/
def refreshInstalledState (records : List TransactionRecord) (world : World σ) :
    List String × World σ :=
  if tracksInstalled config then
    (refreshTargets records).foldl (fun found system =>
      let allowEmpty := (records.filter fun record =>
        refreshes record && record.system == system).all fun record => record.action == .remove
      let synced := syncInstalledStateForSystem host config system allowEmpty found.2
      (if synced.1 then found.1 ++ [system] else found.1, synced.2)) ([], world)
  else ([], world)

def isMutatingAction (action : ActionType) : Bool :=
  action == .install || action == .ensure || action == .remove || action == .update

/-- `HistoryManager::updateInstalledState` for one record. -/
def updateInstalledRecord (record : TransactionRecord) (world : World σ) : World σ :=
  if config.trackInstalled && record.status == .success then
    setInstalled (world.installed.updateInstalledState record.action record.system record.packageName
      record.packageVersion) world
  else world

def actionToString : ActionType → String
  | .install => "install"
  | .ensure => "ensure"
  | .remove => "remove"
  | .update => "update"
  | _ => "unknown"

/-- The event `recordHistory` writes for a record. -/
def historyEvent (record : TransactionRecord) : HistoryEvent :=
  { action := actionToString record.action, packageName := record.packageName,
    packageVersion := record.packageVersion, system := record.system, status := record.status,
    errorMessage := record.errorMessage }

/-- `HistoryManager::appendEvent` for every record. -/
def appendEvents (records : List TransactionRecord) (world : World σ) : World σ :=
  if config.historyEnabled then { world with history := world.history ++ records.map historyEvent }
  else world

/-- `Executer::recordHistory`. -/
def recordHistory (records : List TransactionRecord) (world : World σ) : World σ :=
  if config.historyManager then
    let refreshed := refreshInstalledState host config records (appendEvents config records world)
    (records.filter fun record =>
      isMutatingAction record.action && !refreshed.1.contains record.system).foldl
      (fun world record => updateInstalledRecord config record world) refreshed.2
  else world

def dependencyMatchesPackage (dependency candidate : Package) : Bool :=
  dependency.system == candidate.system && dependency.name == candidate.name &&
    (dependency.version.isEmpty || candidate.version.isEmpty || dependency.version == candidate.version)

/-- The owners `mergeOwnershipForPackage` finds for a package among all packages. -/
def ownersFor (plugins : σ) (allPackages : List Package) (package : Package) : List String :=
  let candidates := allPackages.filter fun candidate =>
    !(candidate.system == package.system && candidate.name == package.name &&
      candidate.version == package.version && candidate.action == package.action)
  let dependents := candidates.flatMap fun candidate =>
    ((normalizedRequirements host plugins candidate).filter fun dependency =>
      dependencyMatchesPackage dependency package).map fun _ => installedPackageOwnerId candidate
  normalizeOwners (ownerIdsForPackage package ++ dependents)

def mergeOwnershipForPackage (allPackages : List Package) (package : Package) (world : World σ) :
    World σ :=
  let owners := ownersFor host world.plugins allPackages package
  let owned :=
    if owners.isEmpty then world
    else setInstalled
      (world.installed.mergeInstalledOwnership package owners package.directRequest) world
  (normalizedRequirements host owned.plugins package).foldl (fun world dependency =>
    setInstalled (world.installed.mergeInstalledOwnership dependency
      [installedPackageOwnerId package] false) world) owned

def collectPackages (groups : List TaskGroup) : List Package := groups.flatMap (·.packages)

/-- `Executer::reconcileInstalledOwnership`. -/
def reconcileInstalledOwnership (allTaskGroups plannedTaskGroups : List TaskGroup)
    (records : List TransactionRecord) (world : World σ) : World σ :=
  if tracksInstalled config then
    let allPackages := collectPackages allTaskGroups
    let plannedPackages := collectPackages plannedTaskGroups
    let succeeded := (records.filter fun record =>
      record.status == .success && isInstallLikeAction record.action).filterMap fun record =>
        plannedPackages.find? (matchesRecord record)
    let satisfied := allPackages.filter fun package =>
      package.directRequest && isInstallLikeAction package.action &&
        !plannedPackages.any fun candidate => samePackage candidate package
    (succeeded ++ satisfied).foldl (fun world package =>
      mergeOwnershipForPackage host allPackages package world) world
  else world

/-- The package a removal record stands for. -/
def removedPackage (record : TransactionRecord) : Package :=
  { action := record.action, system := record.system, name := record.packageName,
    version := record.packageVersion }

def isSuccessfulRemoval (record : TransactionRecord) : Bool :=
  record.status == .success && isRemoveAction record.action

/-- `Executer::subtractDependencyOwnership`. -/
def subtractDependencyOwnership (records : List TransactionRecord) (world : World σ) : World σ :=
  if tracksInstalled config then
    (records.filter isSuccessfulRemoval).foldl (fun world record =>
      (normalizedRequirements host world.plugins (removedPackage record)).foldl
        (fun world dependency => setInstalled (world.installed.subtractInstalledOwnership dependency
          [installedPackageOwnerId (removedPackage record)]) world) world) world
  else world

/-- `findInstalledDependency`: the version asked for, or the only entry of the name. -/
def findInstalledDependency (installedState : List InstalledEntry) (dependency : Package) :
    Option InstalledEntry :=
  let entries := installedState.filter fun entry =>
    entry.system == dependency.system && entry.name == dependency.name
  if dependency.version.isEmpty then
    match entries with
    | [entry] => some entry
    | _ => none
  else entries.find? fun entry => entry.version == dependency.version

/-- The removal a requirement of a removed package leads to. -/
def orphanOf (installedState : List InstalledEntry) (dependency : Package) : Option Package :=
  match findInstalledDependency installedState dependency with
  | none => none
  | some entry =>
      if entry.owners.isEmpty then some { dependency with action := .remove, version := entry.version }
      else none

/-- Queue a removal once for each entry. -/
def queueOrphan (queued : List Package) (package : Package) : List Package :=
  if queued.any fun other => packageIdentityKey other == packageIdentityKey package then queued
  else queued ++ [package]

/-- The removals one round of `removeOrphanedDependencies` decides on. -/
def orphanedPackages (plugins : σ) (installedState : List InstalledEntry)
    (records : List TransactionRecord) : List Package :=
  (((records.filter isSuccessfulRemoval).flatMap fun record =>
    normalizedRequirements host plugins (removedPackage record)).filterMap
      (orphanOf installedState)).foldl queueOrphan []

/-- One removal group for each system, in the order of a `std::map`. -/
def orphanGroups (packages : List Package) : List TaskGroup :=
  (stableSort textLess (packages.map (·.system)).dedup).map fun system =>
    { action := .remove, system := system
      packages := packages.filter fun package => package.system == system }

/-- Run the removal groups of one round. -/
def removeOrphanGroups (groups : List TaskGroup) (world : World σ) : List TransactionRecord × World σ :=
  groups.foldl (fun done group =>
    let executed := executeTaskGroup host config "" group done.2
    (done.1 ++ executed.1, executed.2)) ([], world)

/-- One round of `removeOrphanedDependencies`: the records of its removals and the
world in which the next round starts. -/
def orphanRound (records : List TransactionRecord) (world : World σ) :
    List TransactionRecord × World σ :=
  let orphaned := orphanedPackages host world.plugins world.installed.loadInstalledState records
  let removed := removeOrphanGroups host config (orphanGroups orphaned) world
  if removed.1.isEmpty then removed
  else
    (removed.1, subtractDependencyOwnership host config removed.1
      (recordHistory host config removed.1 removed.2))

/-- `Executer::removeOrphanedDependencies`; `none` when the rounds do not end within
the fuel. -/
def removeOrphanedDependencies : Nat → List TransactionRecord → World σ →
    Option (List TransactionRecord × World σ)
  | 0, _, _ => none
  | fuel + 1, records, world =>
      if tracksInstalled config then
        let round := orphanRound host config records world
        if round.1.isEmpty then some round
        else
          (removeOrphanedDependencies fuel round.1 round.2).map fun nested =>
            (round.1 ++ nested.1, nested.2)
      else some ([], world)

end ReqPack.Executor
