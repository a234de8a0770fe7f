import Mathlib.Data.Char
import Mathlib.Data.List.Lex
import ReqPack.Data.Ordering
import ReqPack.Core.Platform

/-! # The installed state

The snapshot kept by `HistoryManager`: one entry for each system, name and
version, with the owners for whose sake the package is installed.
-/

namespace ReqPack.Executor

open ReqPack.Data ReqPack.Core

structure InstalledEntry where
  name : String
  version : String
  system : String
  installedAt : String := ""
  installMethod : String := ""
  owners : List String := []
deriving Repr, DecidableEq

def installedOwnerToken (kind system name : String) : String := kind ++ "\n" ++ system ++ "\n" ++ name

def installedPackageOwnerId (package : Package) : String :=
  installedOwnerToken "pkg" package.system package.name

def installedRootOwnerId (package : Package) : String :=
  installedOwnerToken "root" package.system package.name

def ownerIdsForPackage (package : Package) : List String :=
  if package.directRequest then [installedRootOwnerId package] else []

def escapeField (value : String) : List Char :=
  value.toList.flatMap fun character =>
    if character = '\\' then ['\\', '\\'] else if character = '\n' then ['\\', 'n'] else [character]

/-- `installed_state_key`; escaping keeps the three fields apart. -/
def installedStateKey (entry : InstalledEntry) : List Char :=
  "pkg:".toList ++ escapeField entry.system ++ ['\n'] ++ escapeField entry.name ++ ['\n'] ++
    escapeField entry.version

def sameEntryKey (left right : InstalledEntry) : Bool :=
  left.system == right.system && left.name == right.name && left.version == right.version

def normalizeOwners (owners : List String) : List String :=
  stableSort textLess (owners.filter fun owner => !owner.isEmpty).dedup

/-- An owner that is another package, not the user. -/
def isDependencyOwner (owner : String) : Bool := startsWith owner "pkg\n"

def isRootOwner (owner : String) : Bool := startsWith owner "root\n"

def installMethodFromOwners (owners : List String) : String :=
  if owners.any isRootOwner && owners.any isDependencyOwner then "explicit+dependency"
  else if owners.any isRootOwner then "explicit"
  else if owners.any isDependencyOwner then "dependency"
  else "unknown"

/-- `deserialize_installed_entry` after `serialize_installed_entry`. -/
def readBack (entry : InstalledEntry) : Option InstalledEntry :=
  if entry.name.isEmpty || entry.system.isEmpty then none
  else
    let owners := normalizeOwners entry.owners
    some { entry with
      owners := owners
      installMethod :=
        if entry.installMethod.isEmpty then installMethodFromOwners owners else entry.installMethod }

/-- What the database holds, in the order of the keys. -/
abbrev InstalledStore := List InstalledEntry

namespace InstalledStore

variable (store : InstalledStore)

def loadInstalledState : List InstalledEntry := store.filterMap readBack

def put (entry : InstalledEntry) : InstalledStore :=
  (store.filter fun other => !sameEntryKey other entry).orderedInsert
    (fun left right => installedStateKey left ≤ installedStateKey right) entry

/-- `find_installed_state_entry`: the version asked for, else the only entry of the name. -/
def findEntry (system name version : String) : Option InstalledEntry :=
  let entries := (store.filter fun entry => entry.system == system && entry.name == name).filterMap readBack
  match (if version.isEmpty then none else entries.find? fun entry => entry.version == version) with
  | some entry => some entry
  | none =>
      match entries with
      | [entry] => some entry
      | _ => none

def removeEntries (system name version : String) : InstalledStore :=
  store.filter fun entry =>
    !(entry.system == system && entry.name == name && (version.isEmpty || entry.version == version))

/-- What `select_existing_entry_for_replace` finds for a package the plugin lists. -/
def selectExisting (existing : List InstalledEntry) (candidate : InstalledEntry) : Option InstalledEntry :=
  match (existing.filter fun entry =>
      entry.name == candidate.name && entry.version == candidate.version).getLast? with
  | some entry => some entry
  | none =>
      match existing.filter fun entry => entry.name == candidate.name with
      | [entry] => some entry
      | _ => none

/-- The entry written for a listed package: owners and method survive a refresh. -/
def refreshedEntry (existing : List InstalledEntry) (system syncedAt : String)
    (listed : InstalledEntry) : InstalledEntry :=
  let entry := { listed with system := system }
  let found := selectExisting existing entry
  let owners := normalizeOwners
    (if entry.owners.isEmpty then (found.map (·.owners)).getD [] else entry.owners)
  { entry with
    installedAt := if entry.installedAt.isEmpty then (found.map (·.installedAt)).getD syncedAt
      else entry.installedAt
    owners := owners
    installMethod :=
      if entry.installMethod.isEmpty || entry.installMethod == "unknown" then
        let kept := (found.map (·.installMethod)).getD ""
        if kept.isEmpty then installMethodFromOwners owners else kept
      else entry.installMethod }

/-- `replaceInstalledState`. -/
def replaceInstalledState (system syncedAt : String) (listed : List InstalledEntry) : InstalledStore :=
  let existing := (store.filter fun entry => entry.system == system).filterMap readBack
  (listed.filter fun entry => !entry.name.isEmpty).foldl
    (fun store entry => put store (refreshedEntry existing system syncedAt entry))
    (store.filter fun entry => entry.system != system)

/-- `mergeInstalledOwnership`. -/
def mergeInstalledOwnership (package : Package) (ownerIds : List String) (directRequest : Bool) :
    InstalledStore :=
  if package.system.isEmpty || package.name.isEmpty then store
  else
    match findEntry store package.system package.name package.version with
    | none => store
    | some entry =>
        let owners := normalizeOwners (entry.owners ++ ownerIds)
        let method := installMethodFromOwners owners
        put store { entry with
          owners := owners
          installMethod := if directRequest && method == "unknown" then "explicit" else method }

/-- `subtractInstalledOwnership`. -/
def subtractInstalledOwnership (package : Package) (ownerIds : List String) : InstalledStore :=
  if package.system.isEmpty || package.name.isEmpty then store
  else
    match findEntry store package.system package.name package.version with
    | none => store
    | some entry =>
        let owners := normalizeOwners (entry.owners.filter fun owner => owner ∉ ownerIds)
        put store { entry with owners := owners, installMethod := installMethodFromOwners owners }

/-- `updateInstalledState` for a record that succeeded. -/
def updateInstalledState (action : ActionType) (system name version : String) : InstalledStore :=
  if action = .remove then removeEntries store system name version
  else if action = .update then
    put (removeEntries store system name "") { name := name, version := version, system := system }
  else if action = .install ∨ action = .ensure then
    put store { name := name, version := version, system := system }
  else store

end InstalledStore

end ReqPack.Executor
