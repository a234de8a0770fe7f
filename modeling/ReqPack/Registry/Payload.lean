import ReqPack.Registry.Sync

/-! # The payload of a plugin record

`registry_database_payload`: where the script of a record is fetched from, and the record
with a payload that was fetched anew.  Scripts are checked when they are fetched, save the
run script of a bundle.
-/

namespace ReqPack.Registry

open ReqPack.Data ReqPack.Core
open ReqPack.Planner (toLowerCopy)

section Places

/-- The operator `/` of paths. -/
def joinPath (base added : String) : String :=
  if startsWith added "/" then added
  else if base.isEmpty || endsWith base "/" then base ++ added
  else base ++ "/" ++ added

/-- `parent_path`. -/
def parentPath (path : String) : String :=
  let upToSlash := path.toList.reverse.dropWhile (· != '/')
  let parent := (upToSlash.dropWhile (· == '/')).reverse
  if parent.isEmpty && startsWith path "/" then "/" else String.ofList parent

/-- `registry_database_git_source_url`. -/
def gitSourceUrl (source : String) : String :=
  let stripped := stripQueryFragment (withoutGitScheme source)
  match behindFirst "://".toList stripped.toList with
  | none => stripped
  | some behindScheme =>
      -- an `@` before the path belongs to the authority
      if '@' ∈ behindScheme.dropWhile (· != '/') then
        String.ofList ((stripped.toList.reverse.dropWhile (· != '@')).drop 1).reverse
      else stripped

/-- `registry_database_git_source_with_ref`. -/
def gitSourceWithRef (source ref : String) : String :=
  let scheme := if startsWith source "git+" then "git+" else ""
  if ref.isEmpty then scheme ++ gitSourceUrl source else scheme ++ gitSourceUrl source ++ "?ref=" ++ ref

end Places

/-- A bundle that was read from a directory. -/
structure PluginBundleLayout where
  rootDir : String
  runScriptPath : String
  metadataName : String
deriving Repr, DecidableEq

/-- What can be found behind a source. -/
structure PayloadWorld where
  pathExists : String → Bool
  isDirectory : String → Bool
  /-- `read_text_file`: nothing where a file cannot be opened -/
  readTextFile : String → String
  /-- `plugin_bundle_read_directory` -/
  readBundleDirectory : String → Option PluginBundleLayout
  syncGitRepository : String → String → Bool
  gitRepositoryCachePath : String → String → String
  latestGitTag : String → Option String
  /-- the body of an answer that is no error -/
  download : String → Option String

section Fetch

variable (world : PayloadWorld)

/-- The directories `plugin_bundle_find_root` looks at, in its order. -/
def bundleCandidates (basePath pluginId : String) : List String :=
  let group := String.ofList ((toLowerCopy pluginId).toList.take 1)
  if pluginId.isEmpty then [basePath]
  else
    [joinPath (joinPath basePath "plugins") pluginId,
      joinPath (joinPath (joinPath basePath "plugins") group) pluginId,
      joinPath basePath pluginId,
      joinPath (joinPath basePath group) pluginId,
      joinPath (joinPath basePath "rqp-plugins") pluginId,
      joinPath (joinPath (joinPath basePath "rqp-plugins") group) pluginId,
      basePath]

/-- `plugin_bundle_find_root`. -/
def bundleFindRoot (basePath pluginId : String) : Option PluginBundleLayout :=
  let expected := toLowerCopy pluginId
  (bundleCandidates basePath pluginId).findSome? fun candidate =>
    (world.readBundleDirectory candidate).filter fun layout =>
      expected.isEmpty || layout.metadataName == expected

def readPluginPayloadFiles (scriptPath bootstrapPath : String) : Option (String × String) :=
  if !world.pathExists scriptPath then none
  else
    let script := world.readTextFile scriptPath
    if !isValidPluginScript script then none
    else some (script, if world.pathExists bootstrapPath then world.readTextFile bootstrapPath else "")

/-- The run script of a bundle is taken as it is. -/
def readPluginDirectory (directory pluginName : String) : Option (String × String) :=
  match bundleFindRoot world directory pluginName with
  | some layout => some (world.readTextFile layout.runScriptPath, "")
  | none =>
      readPluginPayloadFiles world (joinPath directory (pluginName ++ ".lua")) (joinPath directory "bootstrap.lua")

def fetchGitPluginPayload (source pluginName : String) : Option (String × String) :=
  if !world.syncGitRepository source pluginName then none
  else readPluginDirectory world (world.gitRepositoryCachePath source pluginName) pluginName

def fetchText (source : String) : Option String :=
  if source.isEmpty then none
  else if !contains source "://" then
    let content := world.readTextFile source
    if content.isEmpty then none else some content
  else (world.download source).filter fun body => !body.isEmpty

/-- `resolve_bundle_path`. -/
def resolveBundlePath (source pluginName : String) : Option String :=
  let local_ :=
    if world.pathExists source && world.isDirectory source then bundleFindRoot world source pluginName else none
  let cached :=
    if isGitSource source then
      bundleFindRoot world (world.gitRepositoryCachePath source pluginName) pluginName
    else none
  (local_.or cached).map PluginBundleLayout.rootDir

/-- `fetch_plugin_payload`. -/
def fetchPluginPayload (source pluginName : String) : Option (String × String) :=
  if source.isEmpty then none
  else if world.pathExists source && world.isDirectory source then readPluginDirectory world source pluginName
  else if isGitSource source then fetchGitPluginPayload world source pluginName
  else if !contains source "://" then
    let script := world.readTextFile source
    let bootstrapPath := joinPath (parentPath source) "bootstrap.lua"
    if !isValidPluginScript script then none
    else some (script, if world.pathExists bootstrapPath then world.readTextFile bootstrapPath else "")
  else
    match fetchText world source with
    | none => none
    | some script => if !isValidPluginScript script then none else some (script, "")

/-- The files a record in an existing bundle directory is checked against. -/
def bundlePayload (bundlePath pluginName : String) : Option (String × String) :=
  if !world.pathExists bundlePath then none
  else
    match bundleFindRoot world bundlePath pluginName with
    | some layout => some (world.readTextFile layout.runScriptPath, "")
    | none =>
        some (world.readTextFile (joinPath bundlePath (pluginName ++ ".lua")),
          world.readTextFile (joinPath bundlePath "bootstrap.lua"))

/-- The configuration and the files a database works with. -/
structure RegistryHost where
  requireThinLayer : Bool
  sha256Hex : String → String
  world : PayloadWorld

def RegistryHost.env (host : RegistryHost) : RegistryEnv where
  requireThinLayer := host.requireThinLayer
  sha256Hex := host.sha256Hex
  bundlePayload := Registry.bundlePayload host.world
  resolveBundlePath := Registry.resolveBundlePath host.world
  fetchPluginPayload := Registry.fetchPluginPayload host.world

end Fetch

section Refresh

variable (host : RegistryHost)

/-- The source a refresh takes the payload from. -/
def sourceForPayload (preferLatestTag : Bool) (source : String) : String :=
  if preferLatestTag && isGitSource source then
    match host.world.latestGitTag source with
    | some latestTag => gitSourceWithRef source latestTag
    | none => source
  else source

/-- A record with the payload that was found at a source. -/
def withPayload (source : String) (payload : String × String) (record : RegistryRecord) : RegistryRecord :=
  match resolveBundlePath host.world source record.name with
  | some path =>
      { record with
        script := payload.1, bootstrapScript := payload.2, bundleSource := true, bundlePath := path }
  | none =>
      { record with
        script := payload.1, bootstrapScript := payload.2, bundleSource := false, bundlePath := "" }

/-- `refreshed_record_payload`. -/
def refreshedRecordPayload (preferLatestTag : Bool) (record : RegistryRecord) : Option RegistryRecord :=
  if record.isAlias then some record
  else if !canMaterializePlugin record then some (clearPayload record)
  else if !passesThinLayerTrust host.env record then none
  else
    let source := sourceForPayload host preferLatestTag record.source
    match fetchPluginPayload host.world source record.name with
    | none => none
    | some payload =>
        let refreshed := withPayload host source payload record
        if matchesExpectedHashes host.env refreshed then some refreshed else none

/-- `put_record`. -/
def putRecord (record : RegistryRecord) (store : RegistryStore) : RegistryStore :=
  store.put (toLowerCopy record.name) record

/-- The record at the end of a chain of aliases, or the one that is reached in so many steps. -/
def followAliases (store : RegistryStore) : Nat → RegistryRecord → Option RegistryRecord
  | 0, record => some record
  | steps + 1, record =>
      if record.isAlias && !record.source.isEmpty then
        (loadRecord store record.source).bind (followAliases store steps)
      else some record

/-- `RegistryDatabase::resolveRecord`. -/
def resolveRecord (store : RegistryStore) (name : String) : Option RegistryRecord :=
  (loadRecord store name).bind (followAliases store 16)

/-- `RegistryDatabase::refreshRecord`. -/
def refreshRecord (preferLatestTag : Bool) (name : String) (store : RegistryStore) :
    Option RegistryRecord × RegistryStore :=
  match (resolveRecord store name).bind (refreshedRecordPayload host preferLatestTag) with
  | none => (none, store)
  | some refreshed => (some refreshed, putRecord refreshed store)

/-- `RegistryDatabase::cacheScript`. -/
def cacheScript (name script : String) (store : RegistryStore) : Bool × RegistryStore :=
  if !isValidPluginScript script then (false, store)
  else
    match loadRecord store name with
    | none => (false, store)
    | some record =>
        let cached := { record with script := script }
        if matchesExpectedHashes host.env cached then (true, putRecord cached store) else (false, store)

end Refresh

end ReqPack.Registry
