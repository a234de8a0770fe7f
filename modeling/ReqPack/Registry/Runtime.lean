import Mathlib.Logic.Function.Basic
import ReqPack.Registry.Names

/-! # The plugin table of the registry

`Registry` keeps three maps: where the script of a plugin is, its instance, and its
state.  The operations update them one by one, ask the registry database, write plugin
files and call the plugins.
-/

namespace ReqPack.Registry

open ReqPack.Data ReqPack.Core

inductive PluginState where
  | notFound
  | registered
  | active
  | failed
  | shutDown
deriving Repr, DecidableEq

/-- What happens to the instances and to the plugin files. -/
inductive RegistryEvent where
  | constructed (instanceId : Nat)
  | initialised (instanceId : Nat) (ok : Bool)
  | shutDown (instanceId : Nat)
  /-- the instance is destroyed; the flag tells whether its plugin counted as loaded -/
  | erased (instanceId : Nat) (loaded : Bool)
  /-- the directory of a plugin was written anew -/
  | materialized (name : String)
deriving Repr, DecidableEq

inductive PluginCall where
  | loadPlugin (name : String)
  | getPlugin (name : String)
  | getPluginSecurityMetadata (name : String)
  | unloadPlugin (name : String)
  | refreshPlugin (name : String) (preferLatestTag : Bool)
  | scanDirectory (path : String)
  | ensurePluginsDiscovered (pluginIds : List String)
  | shutdownAll
deriving Repr, DecidableEq

/-- The three maps, and the world of the database, the file system and the plugins. -/
structure PluginTable (δ : Type) where
  paths : String → Option String
  plugins : KeyValue String Nat
  states : String → Option PluginState
  nextInstance : Nat
  world : δ
  events : List RegistryEvent

/-- The configuration, and what the database, the file system and the plugins answer;
what they do to the world they share is theirs. -/
structure RuntimeEnv (δ : Type) where
  autoLoadPlugins : Bool := true
  shutDownPluginsOnExit : Bool := true
  securityEnabled : Bool := true
  resolvePluginName : δ → String → String
  resolveRecord : δ → String → Option RegistryRecord
  refreshRecord : δ → String → Bool → Option RegistryRecord × δ
  /-- the configuration, and the bundle directories as they are now -/
  registryEnv : δ → RegistryEnv
  /-- the copy of the bundle of a record, or the bundle made of its script; none when
  there is neither -/
  writeBundle : δ → RegistryRecord → Option δ
  /-- the bundle in the plugin directory of an id, and the one in the workspace: their own
  ids and their scripts -/
  probePluginDirectory : δ → String → Option (String × String)
  probeWorkspace : δ → String → Option (String × String)
  /-- the bundles found below a directory -/
  scanPlugins : δ → String → List (String × String)
  /-- the constructor of `LuaBridge`, which runs the script -/
  construct : δ → String → Nat → δ
  runtimeMetadataMatchesTrustRecord : δ → Nat → RegistryRecord → Bool
  interfaceVersionMatches : δ → Nat → Bool
  init : δ → Nat → Bool × δ
  shutdown : δ → Nat → δ

/-- `Registry::passesThinLayerTrust`. -/
def passesTrust {δ : Type} (env : RuntimeEnv δ) (world : δ) (record : RegistryRecord) : Bool :=
  record.name == builtInRqpPluginId || passesThinLayerTrust (env.registryEnv world) record

namespace PluginTable

variable {δ : Type} (env : RuntimeEnv δ)

def setState (table : PluginTable δ) (name : String) (state : PluginState) : PluginTable δ :=
  { table with states := Function.update table.states name (some state) }

/-- `m_states[name]`, which adds a missing entry. -/
def stateOf (table : PluginTable δ) (name : String) : PluginState := (table.states name).getD .notFound

def touchState (table : PluginTable δ) (name : String) : PluginTable δ := table.setState name (table.stateOf name)

def log (table : PluginTable δ) (event : RegistryEvent) : PluginTable δ :=
  { table with events := table.events ++ [event] }

/-- Destroy the instance of a name, if it has one. -/
def eraseInstance (table : PluginTable δ) (name : String) : PluginTable δ :=
  match table.plugins.get name with
  | none => table
  | some held =>
      { table with plugins := table.plugins.erase name }.log (.erased held (table.stateOf name == PluginState.active))

def erasePath (table : PluginTable δ) (name : String) : PluginTable δ :=
  { table with paths := Function.update table.paths name none }

def eraseState (table : PluginTable δ) (name : String) : PluginTable δ :=
  { table with states := Function.update table.states name none }

/-- `registerProbe`. -/
def registerProbe (table : PluginTable δ) (found : String × String) : PluginTable δ :=
  if found.1 = builtInRqpPluginId then table
  else
    let table := { table with paths := Function.update table.paths found.1 (some found.2) }
    if table.stateOf found.1 = .notFound then table.setState found.1 .registered else table

/-- The loop body of `ensurePluginsDiscovered`. -/
def discoverPlugin (table : PluginTable δ) (pluginId : String) : PluginTable δ :=
  let table := (env.probePluginDirectory table.world pluginId).elim table table.registerProbe
  if (table.paths pluginId).isSome then table
  else (env.probeWorkspace table.world pluginId).elim table table.registerProbe

def pendingPlugins (table : PluginTable δ) (pluginIds : List String) : List String :=
  stableSort textLess ((pluginIds.map (env.resolvePluginName table.world)).filter fun resolvedName =>
    resolvedName != builtInRqpPluginId && (table.paths resolvedName).isNone).dedup

def ensurePluginsDiscovered (table : PluginTable δ) (pluginIds : List String) : PluginTable δ :=
  (table.pendingPlugins env pluginIds).foldl (discoverPlugin env) table

def scanDirectory (table : PluginTable δ) (path : String) : PluginTable δ :=
  (env.scanPlugins table.world path).foldl registerProbe table

/-- `materializePluginScript`. -/
def materialize (table : PluginTable δ) (record : RegistryRecord) : PluginTable δ :=
  if record.name = builtInRqpPluginId then table
  else if record.script.isEmpty && (!record.bundleSource || record.bundlePath.isEmpty) then table
  else
    match env.writeBundle table.world record with
    | none => table
    | some world => { table with world := world }.log (.materialized record.name)

/-- A new instance under a name, from the script at a path. -/
def addInstance (table : PluginTable δ) (name path : String) : PluginTable δ :=
  { table with
    plugins := table.plugins.put name table.nextInstance
    nextInstance := table.nextInstance + 1
    world := env.construct table.world path table.nextInstance }.log (.constructed table.nextInstance)

/-- What the instance says of itself agrees with the record, where there is one. -/
def metadataTrusted (table : PluginTable δ) (name : String) (held : Nat) : Bool :=
  (env.resolveRecord table.world name).all (env.runtimeMetadataMatchesTrustRecord table.world held)

/-- `ensurePluginConstructed`. -/
def ensurePluginConstructed (table : PluginTable δ) (name : String) : Bool × PluginTable δ :=
  let resolvedName := env.resolvePluginName table.world name
  if (table.plugins.get resolvedName).isSome then (true, table)
  else
    match table.paths resolvedName with
    | none => (false, table)
    | some path =>
        let added := table.addInstance env resolvedName path
        if !added.metadataTrusted env resolvedName table.nextInstance then
          (false, (added.eraseInstance resolvedName).setState resolvedName .failed)
        else if (added.states resolvedName).isNone then (true, added.setState resolvedName .registered)
        else (true, added)

/-- The end of `loadPlugin`: a plugin that is there is initialised unless it is active
or failed. -/
def activate (table : PluginTable δ) (name : String) (held : Nat) : Bool × PluginTable δ :=
  if !env.interfaceVersionMatches table.world held then (false, table.setState name .failed)
  else
    let started := env.init table.world held
    let table := { table with world := started.2 }.log (.initialised held started.1)
    if started.1 then (true, table.setState name .active) else (false, table.setState name .failed)

/-- The part of `loadPlugin` behind the construction. -/
def startPlugin (table : PluginTable δ) (name : String) (autoLoad : Bool) : Bool × PluginTable δ :=
  match table.plugins.get name with
  | none => (false, table)
  | some held =>
      let table := table.touchState name
      if table.stateOf name = .active then (true, table)
      else if table.stateOf name = .failed then (false, table)
      else if !autoLoad then (false, table)
      else table.activate env name held

/-- The record a plugin is written from: one without a script is fetched anew. -/
def currentRecord (world : δ) (name : String) (record : RegistryRecord) : Option RegistryRecord × δ :=
  if record.script.isEmpty && !record.isAlias then env.refreshRecord world name false else (some record, world)

/-- What `loadPlugin` and `getPluginSecurityMetadata` do for a plugin without a path that
has a record; false when the record is refused. -/
def materializeTrusted (table : PluginTable δ) (name : String) (record : RegistryRecord) : Bool × PluginTable δ :=
  if !passesTrust env table.world record then (false, table.setState name .failed)
  else
    let refreshed := currentRecord env table.world name record
    let table := { table with world := refreshed.2 }
    match refreshed.1 with
    | none => (false, table.setState name .failed)
    | some current =>
        if !matchesExpectedHashes (env.registryEnv table.world) current then (false, table.setState name .failed)
        else (true, table.materialize env current)

/-- The part of `loadPlugin` before the construction; false when the plugin is refused. -/
def provide (table : PluginTable δ) (name : String) : Bool × PluginTable δ :=
  let record := env.resolveRecord table.world name
  if record.any fun record => !canMaterializePlugin record then (false, table)
  else if (table.paths name).isSome then (true, table)
  else
    match record with
    | none => (true, table.ensurePluginsDiscovered env [name])
    | some record =>
        let provided := table.materializeTrusted env name record
        if provided.1 then (true, provided.2.ensurePluginsDiscovered env [name]) else provided

def loadPlugin (table : PluginTable δ) (name : String) : Bool × PluginTable δ :=
  let resolvedName := env.resolvePluginName table.world name
  if resolvedName = builtInRqpPluginId then
    let constructed := table.ensurePluginConstructed env resolvedName
    if !constructed.1 then (false, constructed.2) else constructed.2.startPlugin env resolvedName true
  else
    let provided := table.provide env resolvedName
    if !provided.1 then (false, provided.2)
    else
      let constructed := provided.2.ensurePluginConstructed env resolvedName
      if !constructed.1 then (false, constructed.2)
      else constructed.2.startPlugin env resolvedName env.autoLoadPlugins

/-- The plugin is taken out of all three maps. -/
def forget (table : PluginTable δ) (name : String) : PluginTable δ :=
  ((table.eraseInstance name).erasePath name).eraseState name

def unloadPlugin (table : PluginTable δ) (name : String) : PluginTable δ :=
  let resolvedName := env.resolvePluginName table.world name
  let table :=
    match table.plugins.get resolvedName with
    | none => table
    | some held =>
        let table := table.touchState resolvedName
        if table.stateOf resolvedName = PluginState.active then
          { table with world := env.shutdown table.world held }.log (.shutDown held)
        else table
  table.forget resolvedName

/-- `getPlugin`: whether there is an instance. -/
def getPlugin (table : PluginTable δ) (name : String) : Option Nat × PluginTable δ :=
  let resolvedName := env.resolvePluginName table.world name
  let constructed := table.ensurePluginConstructed env resolvedName
  if constructed.1 then (constructed.2.plugins.get resolvedName, constructed.2) else (none, constructed.2)

/-- The part of `getPluginSecurityMetadata` before the construction. -/
def provideMetadata (table : PluginTable δ) (name : String) : Bool × PluginTable δ :=
  if (table.paths name).isSome then (true, table)
  else
    match env.resolveRecord table.world name with
    | none => (true, table)
    | some record =>
        let provided := table.materializeTrusted env name record
        if provided.1 then (true, provided.2.ensurePluginsDiscovered env [name]) else provided

/-- `getPluginSecurityMetadata`: whether there is an instance whose metadata is asked for. -/
def getPluginSecurityMetadata (table : PluginTable δ) (name : String) : Option Nat × PluginTable δ :=
  if !env.securityEnabled then (none, table)
  else
    let resolvedName := env.resolvePluginName table.world name
    let provided := table.provideMetadata env resolvedName
    if !provided.1 then (none, provided.2)
    else
      let constructed := provided.2.ensurePluginConstructed env resolvedName
      if constructed.1 then (constructed.2.plugins.get resolvedName, constructed.2) else (none, constructed.2)

def refreshPlugin (table : PluginTable δ) (name : String) (preferLatestTag : Bool) : Bool × PluginTable δ :=
  let resolvedName := env.resolvePluginName table.world name
  if resolvedName = builtInRqpPluginId then (false, table)
  else
    let refreshed := env.refreshRecord table.world resolvedName preferLatestTag
    let table := { table with world := refreshed.2 }
    match refreshed.1 with
    | none => (false, table)
    | some record =>
        if !passesTrust env table.world record then (false, table.setState resolvedName .failed)
        else if !matchesExpectedHashes (env.registryEnv table.world) record then (false, table.setState resolvedName .failed)
        else (true, ((table.materialize env record).forget resolvedName).ensurePluginsDiscovered env [resolvedName])

def shutdownInstance (table : PluginTable δ) (entry : String × Nat) : PluginTable δ :=
  let table := table.touchState entry.1
  if table.stateOf entry.1 = .active then
    ({ table with world := env.shutdown table.world entry.2 }.log (.shutDown entry.2)).setState entry.1 .shutDown
  else table

def shutdownAll (table : PluginTable δ) : PluginTable δ :=
  if !env.shutDownPluginsOnExit then table else table.plugins.entries.foldl (shutdownInstance env) table

/-- The destructor: `shutdownAll`, and then the instances go. -/
def destroy (table : PluginTable δ) : PluginTable δ :=
  let table := table.shutdownAll env
  (table.plugins.entries.map (·.1)).foldl eraseInstance table

/-! ## Runs -/

def call (table : PluginTable δ) : PluginCall → PluginTable δ
  | .loadPlugin name => (table.loadPlugin env name).2
  | .getPlugin name => (table.getPlugin env name).2
  | .getPluginSecurityMetadata name => (table.getPluginSecurityMetadata env name).2
  | .unloadPlugin name => table.unloadPlugin env name
  | .refreshPlugin name preferLatestTag => (table.refreshPlugin env name preferLatestTag).2
  | .scanDirectory path => table.scanDirectory env path
  | .ensurePluginsDiscovered pluginIds => table.ensurePluginsDiscovered env pluginIds
  | .shutdownAll => table.shutdownAll env

def runCalls (table : PluginTable δ) (calls : List PluginCall) : PluginTable δ := calls.foldl (call env) table

end PluginTable

/-- The table of a new registry, with the built-in plugin. -/
def initialTable {δ : Type} (world : δ) : PluginTable δ where
  paths _ := none
  plugins := KeyValue.empty.put builtInRqpPluginId 0
  states := Function.update (fun _ => none) builtInRqpPluginId (some .registered)
  nextInstance := 1
  world := world
  events := [.constructed 0]

end ReqPack.Registry
