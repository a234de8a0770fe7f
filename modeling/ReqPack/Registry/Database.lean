import ReqPack.Registry.MainRegistry

/-! # The registry database

`ensureReady` and `refreshMainRegistry` of `RegistryDatabase`: the first call brings the
store to the main registry and writes the configured sources over it, a later refresh only
syncs the main registry again.
-/

namespace ReqPack.Registry

open ReqPack.Data ReqPack.Core
open ReqPack.Planner (trimCopy toLowerCopy)

inductive RefreshMode
  | always
  | periodic
  | manual
deriving DecidableEq, Repr

/-- The part of the configuration the database reads. -/
structure RegistrySettings where
  /-- `is_json_registry_remote` -/
  jsonRemote : Bool
  location : RegistryLocation
  refreshMode : RefreshMode
  /-- `downloader.pluginSources` -/
  pluginSources : List (String × String)
  /-- `registry.sources`, the names in lower case -/
  sources : KeyValue String RegistrySourceEntry
  lower : ∀ entry ∈ sources.entries, toLowerCopy entry.1 = entry.1

/-- `collect_explicit_registry_sources`. -/
def collectExplicitRegistrySources (settings : RegistrySettings) : KeyValue String RegistrySourceEntry :=
  settings.sources.entries.foldl (fun sources entry => sources.put entry.1 entry.2)
    (settings.pluginSources.foldl (fun sources entry =>
      sources.put (toLowerCopy entry.1) { source := entry.2 }) {})

/-- What the database finds outside when it is called. -/
structure RegistryWorld where
  env : RegistryEnv
  repositorySynced : Bool
  pluginsRootExists : Bool
  headCommit : Option String
  commitExists : String → Bool
  /-- what `git diff --name-status` prints for two commits, unless it fails -/
  nameStatus : String → String → Option String
  tree : RegistryTree
  /-- the last sync is not known or long enough ago -/
  intervalElapsed : Bool

structure RegistryDatabase where
  store : RegistryStore
  lastCommit : Option String
  bootstrapped : Bool

variable (settings : RegistrySettings) (world : RegistryWorld)

def hasRecords (database : RegistryDatabase) : Bool := !(loadAllRecords database.store).isEmpty

def shouldRefreshRegistry (database : RegistryDatabase) : Bool :=
  if settings.refreshMode = .always then true
  else if !hasRecords database then true
  else if settings.refreshMode = .manual then false
  else world.intervalElapsed

/-- What is handed to `sync_records` for a commit. -/
structure MainSync where
  commit : String
  records : List RegistryRecord
  replaceMissing : Bool
  origins : List Path

/-- All registry files of the commit. -/
def fullMainSync (commit : String) : Option MainSync :=
  (registryRecords settings.location world.tree).map fun records => ⟨commit, records, true, []⟩

/-- The registry files that changed. -/
def diffMainSync (commit : String) (entries : List RegistryDiffEntry) : Option MainSync :=
  (changedRecords settings.location world.tree entries).map fun records =>
    ⟨commit, records, false, originPathsToDelete settings.location entries⟩

/-- The branches of `sync_main_registry`; nothing is synced when it returns early or a file
is malformed. -/
def planMainSync (forceRefresh : Bool) (database : RegistryDatabase) : Option MainSync :=
  if !world.repositorySynced || !world.pluginsRootExists then none
  else
    match world.headCommit with
    | none => none
    | some current =>
        if current.isEmpty then none
        else if !forceRefresh && !shouldRefreshRegistry settings world database &&
            database.lastCommit == some current then none
        else
          match database.lastCommit with
          | none => fullMainSync settings world current
          | some previous =>
              if previous.isEmpty || !world.commitExists previous then fullMainSync settings world current
              else if previous = current then some ⟨current, [], false, []⟩
              else
                match (world.nameStatus previous current).bind gitRegistryDiff with
                | none => fullMainSync settings world current
                | some entries => diffMainSync settings world current entries

def applyMainSync (env : RegistryEnv) (sync : MainSync) (database : RegistryDatabase) : RegistryDatabase :=
  { database with
    store := syncRecords env false sync.replaceMissing true sync.origins sync.records database.store
    lastCommit := some sync.commit }

def syncMainRegistry (forceRefresh : Bool) (database : RegistryDatabase) : Bool × RegistryDatabase :=
  if !settings.jsonRemote then (true, database)
  else
    match planMainSync settings world forceRefresh database with
    | none => (hasRecords database, database)
    | some sync => (true, applyMainSync world.env sync database)

def seedExplicitSources (database : RegistryDatabase) : RegistryDatabase :=
  if (collectExplicitRegistrySources settings).entries.isEmpty then database
  else
    { database with
      store := writeRecords world.env (collectExplicitRegistrySources settings).entries database.store }

def bootstrapRegistry (database : RegistryDatabase) : Bool × RegistryDatabase :=
  if !settings.jsonRemote then (true, seedExplicitSources settings world database)
  else
    let synced := syncMainRegistry settings world false database
    (synced.1 || !(collectExplicitRegistrySources settings).entries.isEmpty,
      seedExplicitSources settings world synced.2)

/-- The first call, and every further one until it succeeds. -/
def bootstrap (database : RegistryDatabase) : Bool × RegistryDatabase :=
  let result := bootstrapRegistry settings world database
  (result.1, { result.2 with bootstrapped := result.1 })

def ensureReady (database : RegistryDatabase) : Bool × RegistryDatabase :=
  if database.bootstrapped then (true, database) else bootstrap settings world database

def refreshMainRegistry (forceRefresh : Bool) (database : RegistryDatabase) : Bool × RegistryDatabase :=
  if database.bootstrapped then syncMainRegistry settings world forceRefresh database
  else bootstrap settings world database

inductive RegistryCall
  | ensureReady (world : RegistryWorld)
  | refreshMainRegistry (world : RegistryWorld) (forceRefresh : Bool)

def RegistryCall.run : RegistryCall → RegistryDatabase → Bool × RegistryDatabase
  | .ensureReady world, database => Registry.ensureReady settings world database
  | .refreshMainRegistry world forceRefresh, database =>
      Registry.refreshMainRegistry settings world forceRefresh database

/-- What each call of a sequence returns, with the database behind it. -/
def runCalls : RegistryDatabase → List RegistryCall → List (Bool × RegistryDatabase)
  | _, [] => []
  | database, call :: calls =>
      let result := call.run settings database
      result :: runCalls result.2 calls

end ReqPack.Registry
