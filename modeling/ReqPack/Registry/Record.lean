import ReqPack.Planner.Bundle

/-! # Registry records

`RegistryRecord` and what `registry_database_store` decides about one: where it
comes from, whether it may be trusted, and whether its payload has the hashes it is
pinned to.
-/

namespace ReqPack.Registry

open ReqPack.Data ReqPack.Core
open ReqPack.Planner (trimCopy toLowerCopy)

structure RegistryWriteScope where
  kind : String
  value : String := ""
deriving Repr, DecidableEq

structure RegistryNetworkScope where
  host : String := ""
  scheme : String := ""
  pathPrefix : String := ""
deriving Repr, DecidableEq

structure RegistryRecord where
  name : String := ""
  source : String := ""
  isAlias : Bool := false
  /-- the components of the path of the registry file -/
  originPath : List String := []
  description : String := ""
  role : String := ""
  targetSystem : String := ""
  capabilities : List String := []
  ecosystemScopes : List String := []
  writeScopes : List RegistryWriteScope := []
  networkScopes : List RegistryNetworkScope := []
  privilegeLevel : String := ""
  scriptSha256 : String := ""
  bootstrapSha256 : String := ""
  script : String := ""
  bootstrapScript : String := ""
  bundlePath : String := ""
  bundleSource : Bool := false
deriving Repr, DecidableEq

section Names

theorem toLower_eq_self {letter : Char} (lowered : ¬ (letter.val ≥ 'A'.val ∧ letter.val ≤ 'Z'.val)) :
    letter.toLower = letter := by
  delta Char.toLower
  exact dif_neg lowered

theorem toLower_idem (letter : Char) : letter.toLower.toLower = letter.toLower := by
  by_cases upper : letter.val ≥ 'A'.val ∧ letter.val ≤ 'Z'.val
  · have lowered : ¬ (letter.toLower.val ≥ 'A'.val ∧ letter.toLower.val ≤ 'Z'.val) := by
      delta Char.toLower
      rw [dif_pos upper]
      simp only [ge_iff_le, UInt32.le_iff_toNat_le, UInt32.toNat_add] at upper ⊢
      have above := upper.1
      have below := upper.2
      simp at above below ⊢
      omega
    exact toLower_eq_self lowered
  · rw [toLower_eq_self upper, toLower_eq_self upper]

theorem toLowerCopy_idem (value : String) : toLowerCopy (toLowerCopy value) = toLowerCopy value := by
  simp [toLowerCopy, Function.comp_def, toLower_idem]

theorem toLowerCopy_isEmpty (value : String) : (toLowerCopy value).isEmpty = value.isEmpty := by
  rw [Bool.eq_iff_iff, String.isEmpty_iff, String.isEmpty_iff, ← String.toList_inj, ← String.toList_inj]
  simp [toLowerCopy]

end Names

section Sources

def endsWith (value ending : String) : Bool := ending.toList.isSuffixOf value.toList

def contains (value part : String) : Bool := value.toList.tails.any part.toList.isPrefixOf

/-- `registry_database_strip_query_fragment`. -/
def stripQueryFragment (value : String) : String :=
  String.ofList (value.toList.takeWhile fun letter => letter != '?' && letter != '#')

/-- `is_github_repository_https_url`: an owner and a repository, and nothing more. -/
def isGithubRepositoryHttpsUrl (normalized : String) : Bool :=
  startsWith normalized "https://github.com/" &&
    let path := normalized.toList.drop "https://github.com/".length
    !path.isEmpty && path.any (· != '/') && path.count '/' == 1 && path.head? != some '/' &&
      path.getLast? != some '/'

/-- `registry_database_is_git_source`. -/
def isGitSource (source : String) : Bool :=
  let normalized := toLowerCopy (stripQueryFragment source)
  startsWith normalized "git+" || startsWith normalized "git@" || startsWith normalized "git://" ||
    startsWith normalized "ssh://" || endsWith normalized ".git" || isGithubRepositoryHttpsUrl normalized

def withoutGitScheme (source : String) : String :=
  if startsWith source "git+" then String.ofList (source.toList.drop 4) else source

/-- The letters behind the first place where a part begins. -/
def behindFirst (part : List Char) : List Char → Option (List Char)
  | [] => if part.isEmpty then some [] else none
  | letter :: letters =>
      if part.isPrefixOf (letter :: letters) then some ((letter :: letters).drop part.length)
      else behindFirst part letters

/-- What stands behind an `@` in the path of a URL: `scheme://authority/path@ref`. -/
def refBehindPath (stripped : String) : String :=
  match behindFirst "://".toList stripped.toList with
  | none => ""
  | some behindScheme =>
      -- an `@` before the path belongs to the authority
      let path := behindScheme.dropWhile (· != '/')
      if '@' ∈ path then String.ofList (path.reverse.takeWhile (· != '@')).reverse else ""

/-- The value of the first `ref=` of a query. -/
def refOfQuery (query : List Char) : Option String :=
  ((query.splitOn '&').find? fun part => "ref=".toList.isPrefixOf part).map fun part =>
    String.ofList (part.drop 4)

/-- `registry_database_git_source_ref`. -/
def gitSourceRef (source : String) : String :=
  let raw := withoutGitScheme source
  let fragment := (raw.toList.dropWhile (· != '#')).drop 1
  let query := (raw.toList.dropWhile (· != '?')).drop 1
  -- a fragment in front of the query does not end it
  let ended := if '?' ∈ raw.toList.takeWhile (· != '#') then query.takeWhile (· != '#') else query
  match refOfQuery ended with
  | some ref => ref
  | none => if fragment.isEmpty then refBehindPath (stripQueryFragment raw) else String.ofList fragment

def isHexDigit (letter : Char) : Bool :=
  letter.isDigit || ('a' ≤ letter && letter ≤ 'f') || ('A' ≤ letter && letter ≤ 'F')

/-- `registry_database_is_valid_sha256`. -/
def isValidSha256 (value : String) : Bool := value.length == 64 && value.toList.all isHexDigit

/-- `registry_database_looks_like_html_document`. -/
def looksLikeHtmlDocument (value : String) : Bool :=
  let beginning := toLowerCopy (String.ofList (value.toList.take 512))
  contains beginning "<!doctype html" || contains beginning "<html" || contains beginning "<head" ||
    contains beginning "<body"

/-- `registry_database_is_valid_plugin_script`. -/
def isValidPluginScript (script : String) : Bool :=
  script.toList.any (fun letter => !isSpace letter) && !looksLikeHtmlDocument script

end Sources

section Records

/-- `registry_record_is_package_entry`. -/
def isPackageEntry (record : RegistryRecord) : Bool := toLowerCopy record.role == "package"

/-- `registry_record_can_materialize_plugin`. -/
def canMaterializePlugin (record : RegistryRecord) : Bool := !record.isAlias && !isPackageEntry record

/-- What the configuration and the file system have to do with a record. -/
structure RegistryEnv where
  requireThinLayer : Bool := false
  sha256Hex : String → String
  /-- the script and the bootstrap script found in an existing bundle directory -/
  bundlePayload : String → String → Option (String × String)
  resolveBundlePath : String → String → Option String
  fetchPluginPayload : String → String → Option (String × String)

variable (env : RegistryEnv)

def requiresScriptHash (record : RegistryRecord) : Bool :=
  canMaterializePlugin record && (isGitSource record.source || contains record.source "://")

/-- `registry_record_passes_thin_layer_trust`. -/
def passesThinLayerTrust (record : RegistryRecord) : Bool :=
  if !env.requireThinLayer || record.isAlias then true
  else if record.source.isEmpty || record.role.isEmpty || record.privilegeLevel.isEmpty then false
  else if requiresScriptHash record && !isValidSha256 record.scriptSha256 then false
  else if !record.bootstrapSha256.isEmpty && !isValidSha256 record.bootstrapSha256 then false
  else !(isGitSource record.source && (gitSourceRef record.source).isEmpty)

/-- `registry_record_payload_files`. -/
def payloadFiles (record : RegistryRecord) : String × String :=
  if record.bundleSource && !record.bundlePath.isEmpty then
    (env.bundlePayload record.bundlePath record.name).getD (record.script, record.bootstrapScript)
  else (record.script, record.bootstrapScript)

/-- A text has the hash it is pinned to, if it is pinned. -/
def matchesPinnedHash (pinned text : String) : Bool :=
  pinned.isEmpty || (isValidSha256 pinned && !text.isEmpty && env.sha256Hex text == toLowerCopy pinned)

/-- `registry_record_matches_expected_hashes`. -/
def matchesExpectedHashes (record : RegistryRecord) : Bool :=
  if !canMaterializePlugin record then true
  else
    let payload := payloadFiles env record
    matchesPinnedHash env record.scriptSha256 payload.1 &&
      matchesPinnedHash env record.bootstrapSha256 payload.2

/-- The lines of a text that are not empty. -/
def splitLines (value : String) : List String :=
  ((value.toList.splitOn '\n').filter fun line => !line.isEmpty).map String.ofList

def joinLines (values : List String) : String := String.ofList (['\n'].intercalate (values.map String.toList))

/-- What `registry_database_deserialize_record` reads back of a record that was written. -/
def restoredRecord (record : RegistryRecord) : Option RegistryRecord :=
  if record.source.isEmpty && !record.isAlias then none
  else if canMaterializePlugin record && !record.script.isEmpty && !isValidPluginScript record.script then none
  else some
    { record with
      capabilities := splitLines (joinLines record.capabilities)
      ecosystemScopes := splitLines (joinLines record.ecosystemScopes) }

end Records

end ReqPack.Registry
