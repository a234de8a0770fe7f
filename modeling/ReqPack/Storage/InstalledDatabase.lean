import ReqPack.Data.KeyValue
import ReqPack.Storage.InstalledCodec

/-! # The database of installed packages

`history_manager_store` on the level of keys and payloads.  Every operation first
imports the file of an older format, once; then it runs one write transaction.
-/

namespace ReqPack.Storage

open ReqPack.Data

variable {α : Type} [Alphabet α]

abbrev Database (α : Type) [Alphabet α] := KeyValue (List α) (List α)

section Legacy

/-- What follows the first occurrence of the needle. -/
def findAfter (needle : List α) : List α → Option (List α)
  | [] => if needle.isEmpty then some [] else none
  | letter :: rest =>
      if needle.isPrefixOf (letter :: rest) then some ((letter :: rest).drop needle.length)
      else findAfter needle rest

def jsonEscaped (letter : α) : α :=
  if letter = Alphabet.symbol 'n' then newlineSymbol
  else if letter = Alphabet.symbol 'r' then Alphabet.symbol '\r'
  else if letter = Alphabet.symbol 't' then Alphabet.symbol '\t'
  else letter

/-- The letters up to the closing quote; the flag tells that the last one was a backslash. -/
def jsonString : Bool → List α → List α
  | _, [] => []
  | true, letter :: rest => jsonEscaped letter :: jsonString false rest
  | false, letter :: rest =>
      if letter = backslashSymbol then jsonString true rest
      else if letter = Alphabet.symbol '"' then []
      else letter :: jsonString false rest

def extractJsonString (json : List α) (key : String) : List α :=
  match findAfter (text ("\"" ++ key ++ "\":\"")) json with
  | none => []
  | some rest => jsonString false rest

def legacyEntry (line : List α) : StoredEntry α :=
  { name := extractJsonString line "name"
    version := extractJsonString line "version"
    system := extractJsonString line "manager"
    installedAt := extractJsonString line "installedAt" }

/-- `read_legacy_installed_state` for the content of the file. -/
def readLegacyInstalledState (content : List α) : List (StoredEntry α) :=
  (((pieces newlineSymbol content).filter fun line => (findAfter (text "\"name\"") line).isSome).map
    legacyEntry).filter fun entry => !entry.name.isEmpty && !entry.system.isEmpty

end Legacy

def initializedKey : List α := text "meta:initialized"

namespace Database

variable (database : Database α)

def putEntry (entry : StoredEntry α) : Database α :=
  database.put (installedStateKey entry.system entry.name entry.version) (serializeInstalledEntry entry)

def markInitialized : Database α := database.put initializedKey (text "1")

/-- `ensure_legacy_installed_state_imported`; `legacy` is the content of the old file, if
there is one. -/
def ensureLegacyInstalledStateImported (legacy : Option (List α)) : Database α :=
  if (database.get initializedKey).isSome then database
  else
    match legacy with
    | none => database
    | some content => markInitialized ((readLegacyInstalledState content).foldl putEntry database)

def loadEntriesForKeys (keys : List (List α)) : List (StoredEntry α) :=
  keys.filterMap fun key => (database.get key).bind deserializeInstalledEntry

/-- `find_installed_state_entry`: keys and entries are matched by their position. -/
def findInstalledStateEntry (system name version : List α) : Option (List α × StoredEntry α) :=
  let keys := database.keysFrom (installedStateNamePrefix system name)
  let entries := database.loadEntriesForKeys keys
  match (if version.isEmpty then none
    else (keys.zip entries).find? fun found => decide (found.2.version = version)) with
  | some found => some found
  | none =>
      match keys, entries with
      | key :: _, [entry] => some (key, entry)
      | _, _ => none

def upsertInstalledState (entry : StoredEntry α) : Database α := database.markInitialized.putEntry entry

def removeInstalledState (system name version : List α) : Database α :=
  database.markInitialized.eraseKeys
    (if version.isEmpty then database.keysFrom (installedStateNamePrefix system name)
     else [installedStateKey system name version])

end Database

/-- The record of an operation as the history manager gets it. -/
structure HistoryEntry (α : Type) where
  timestamp : List α := []
  action : List α := []
  packageName : List α := []
  packageVersion : List α := []
  system : List α := []
  status : List α := []

/-- The fields of a package that the ownership operations look at. -/
structure PackageName (α : Type) where
  system : List α
  name : List α
  version : List α

section Ownership

/-- `select_existing_entry_for_replace`: the last entry of the same identity, else the
only one of the same name. -/
def selectExistingEntryForReplace (existing : List (StoredEntry α)) (candidate : StoredEntry α) :
    Option (StoredEntry α) :=
  match (existing.filter fun entry =>
      decide (installedStateIdentity entry = installedStateIdentity candidate)).getLast? with
  | some entry => some entry
  | none =>
      match existing.filter fun entry => decide (entry.name = candidate.name) with
      | [entry] => some entry
      | _ => none

/-- The entry `replaceInstalledState` writes for one it was given. -/
def replacedEntry (existing : List (StoredEntry α)) (system syncedAt : List α) (given : StoredEntry α) :
    StoredEntry α :=
  let entry := { given with system := system }
  let found := selectExistingEntryForReplace existing entry
  let owners := normalizeOwners
    (if entry.owners.isEmpty then (found.map (·.owners)).getD [] else entry.owners)
  { entry with
    installedAt := if entry.installedAt.isEmpty then (found.map (·.installedAt)).getD syncedAt
      else entry.installedAt
    owners := owners
    installMethod :=
      if entry.installMethod.isEmpty || decide (entry.installMethod = text "unknown") then
        let kept := (found.map (·.installMethod)).getD []
        if kept.isEmpty then installMethodFromOwners owners else kept
      else entry.installMethod }

def mergedEntry (entry : StoredEntry α) (ownerIds : List (List α)) (directRequest : Bool) : StoredEntry α :=
  let owners := normalizeOwners (entry.owners ++ ownerIds)
  let method := installMethodFromOwners owners
  { entry with
    owners := owners
    installMethod := if directRequest && decide (method = text "unknown") then text "explicit" else method }

def subtractedEntry (entry : StoredEntry α) (ownerIds : List (List α)) : StoredEntry α :=
  let owners := normalizeOwners (entry.owners.filter fun owner => decide (owner ∉ ownerIds))
  { entry with owners := owners, installMethod := installMethodFromOwners owners }

end Ownership

namespace Database

variable (legacy : Option (List α)) (database : Database α)

/-- `HistoryManager::loadInstalledState` with what it leaves in the database. -/
def loadInstalledState : List (StoredEntry α) × Database α :=
  let ready := database.ensureLegacyInstalledStateImported legacy
  (ready.entries.filterMap fun entry =>
    if (text "pkg:").isPrefixOf entry.1 then deserializeInstalledEntry entry.2 else none, ready)

/-- `HistoryManager::updateInstalledState`. -/
def updateInstalledState (entry : HistoryEntry α) : Database α :=
  let isInstall := decide (entry.action = text "install") || decide (entry.action = text "ensure")
  let isRemove := decide (entry.action = text "remove")
  let isUpdate := decide (entry.action = text "update")
  if entry.status ≠ text "success" then database
  else if !isInstall && !isRemove && !isUpdate then database
  else
    let ready := database.ensureLegacyInstalledStateImported legacy
    if isRemove then ready.removeInstalledState entry.system entry.packageName entry.packageVersion
    else
      let cleared := if isUpdate then ready.removeInstalledState entry.system entry.packageName [] else ready
      cleared.upsertInstalledState
        { name := entry.packageName, version := entry.packageVersion, system := entry.system,
          installedAt := entry.timestamp }

/-- `HistoryManager::replaceInstalledState`. -/
def replaceInstalledState (system syncedAt : List α) (given : List (StoredEntry α)) : Database α :=
  let ready := database.ensureLegacyInstalledStateImported legacy
  let existingKeys := ready.keysFrom (installedStateSystemPrefix system)
  let existing := ready.loadEntriesForKeys existingKeys
  ((given.filter fun entry => !entry.name.isEmpty).map (replacedEntry existing system syncedAt)).foldl
    putEntry (ready.markInitialized.eraseKeys existingKeys)

/-- `HistoryManager::mergeInstalledOwnership`. -/
def mergeInstalledOwnership (package : PackageName α) (ownerIds : List (List α)) (directRequest : Bool) :
    Database α :=
  if package.system.isEmpty || package.name.isEmpty then database
  else
    let ready := database.ensureLegacyInstalledStateImported legacy
    match ready.findInstalledStateEntry package.system package.name package.version with
    | none => ready
    | some (key, entry) =>
        ready.markInitialized.put key (serializeInstalledEntry (mergedEntry entry ownerIds directRequest))

/-- `HistoryManager::subtractInstalledOwnership`. -/
def subtractInstalledOwnership (package : PackageName α) (ownerIds : List (List α)) : Database α :=
  if package.system.isEmpty || package.name.isEmpty then database
  else
    let ready := database.ensureLegacyInstalledStateImported legacy
    match ready.findInstalledStateEntry package.system package.name package.version with
    | none => ready
    | some (key, entry) =>
        ready.markInitialized.put key (serializeInstalledEntry (subtractedEntry entry ownerIds))

end Database

end ReqPack.Storage
