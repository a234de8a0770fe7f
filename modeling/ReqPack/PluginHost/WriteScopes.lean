import ReqPack.Data.LexicalPaths
import ReqPack.Rqp.Extraction

/-! # Write scopes

A plugin declares where its commands write.  A scope names a base path, and a target is
allowed when it begins with it; both are normalised as texts, and nothing is looked up.
-/

namespace ReqPack.PluginHost

open ReqPack.Data ReqPack.Data.Ascii ReqPack.Rqp
open LexicalPath

structure PluginWriteScope where
  kind : Bytes
  value : Bytes := []
deriving DecidableEq, Repr

/-- What the checks read from their process: `current_path`, which can fail,
`temp_directory_path`, `reqpack_cache_directory` and the variable `HOME`. -/
structure ExecutionEnvironment where
  currentPath : Option (LexicalPath Bytes)
  tempDirectory : LexicalPath Bytes
  cacheDirectory : LexicalPath Bytes
  home : Option (LexicalPath Bytes)

section Source

/-- A `std::filesystem::path` from its text; slashes in a row count once. -/
def pathOf (text : Bytes) : LexicalPath Bytes :=
  let components := (text.splitOn slash).filter fun component => !component.isEmpty
  { absolute := text.head? == some slash
    parts := components.map nativePart
    trailing := !components.isEmpty && text.getLast? == some slash }

def currentWorkingDirectoryOr (env : ExecutionEnvironment) (fallback : LexicalPath Bytes) : LexicalPath Bytes :=
  env.currentPath.getD fallback

def normalizeExecPath (rawPath : Bytes) (basePath : LexicalPath Bytes) : LexicalPath Bytes :=
  let candidate := pathOf rawPath
  if candidate.isEmpty then {}
  else if candidate.absolute then candidate.lexicallyNormal
  else (basePath.append candidate).lexicallyNormal

def isSafeRedirectionSink (path : LexicalPath Bytes) : Bool :=
  path = pathOf (bytes "/dev/null") || path = pathOf (bytes "/dev/stdout") || path = pathOf (bytes "/dev/stderr")

/-- The base of a scope with a value of its own. -/
def joinScope (base : LexicalPath Bytes) (value : Bytes) : LexicalPath Bytes :=
  if value.isEmpty then base else base.append (pathOf value)

def systemPackagePaths : List (LexicalPath Bytes) :=
  [pathOf (bytes "/usr"), pathOf (bytes "/usr/local"), pathOf (bytes "/opt"), pathOf (bytes "/etc"),
    pathOf (bytes "/var/lib"), pathOf (bytes "/var/cache")]

def writeScopeAllowsPath (env : ExecutionEnvironment) (scope : PluginWriteScope)
    (targetPath pluginDirectory : LexicalPath Bytes) : Bool :=
  let kind := toLowerCopy scope.kind
  if kind = bytes "read-only" then false
  else if kind = bytes "temp" then targetPath.hasPrefix env.tempDirectory.lexicallyNormal
  else if kind = bytes "plugin-data" then
    targetPath.hasPrefix (joinScope pluginDirectory scope.value).lexicallyNormal
  else if kind = bytes "reqpack-cache" then targetPath.hasPrefix env.cacheDirectory.lexicallyNormal
  else if kind = bytes "user-home-subpath" then
    match env.home with
    | none => false
    | some home =>
        if home.isEmpty then false
        else targetPath.hasPrefix (joinScope home scope.value).lexicallyNormal
  else if kind = bytes "system-package-paths" then systemPackagePaths.any targetPath.hasPrefix
  else false

def anyWriteScopeAllowsPath (env : ExecutionEnvironment) (scopes : List PluginWriteScope)
    (targetPath pluginDirectory : LexicalPath Bytes) : Bool :=
  scopes.any fun scope => writeScopeAllowsPath env scope targetPath pluginDirectory

end Source

/-! ## Bases -/

section Bases

variable (env : ExecutionEnvironment) (scope : PluginWriteScope) (pluginDirectory : LexicalPath Bytes)

/-- `kind` compared as the checks compare it. -/
def PluginWriteScope.HasKind (kind : String) : Prop := toLowerCopy scope.kind = bytes kind

instance (kind : String) : Decidable (scope.HasKind kind) :=
  inferInstanceAs (Decidable (toLowerCopy scope.kind = bytes kind))

/-- The base path of a scope that has a single one. -/
def scopeBase : Option (LexicalPath Bytes) :=
  let kind := toLowerCopy scope.kind
  if kind = bytes "temp" then some env.tempDirectory
  else if kind = bytes "plugin-data" then some (joinScope pluginDirectory scope.value)
  else if kind = bytes "reqpack-cache" then some env.cacheDirectory
  else if kind = bytes "user-home-subpath" then
    (env.home.filter fun home => !home.isEmpty).map fun home => joinScope home scope.value
  else none

/-- A scope of the plugin or of its user allows nothing outside the directory it is named
after, and slashes behind the base path of a scope make no difference. -/
structure ScopeContains : Prop where
  pluginData : scope.HasKind "plugin-data" → ∀ target : LexicalPath Bytes, target.absolute = true →
    writeScopeAllowsPath env scope target.lexicallyNormal pluginDirectory = true → Inside pluginDirectory target
  userHome : scope.HasKind "user-home-subpath" → ∀ target : LexicalPath Bytes, target.absolute = true →
    writeScopeAllowsPath env scope target.lexicallyNormal pluginDirectory = true →
    ∃ home, env.home = some home ∧ Inside home target
  slashes : ∀ (otherEnv : ExecutionEnvironment) (otherScope : PluginWriteScope)
    (otherDirectory base otherBase : LexicalPath Bytes),
    toLowerCopy otherScope.kind = toLowerCopy scope.kind → scopeBase env scope pluginDirectory = some base →
    scopeBase otherEnv otherScope otherDirectory = some otherBase → otherBase.absolute = base.absolute →
    otherBase.parts = base.parts → ∀ target : LexicalPath Bytes, target.absolute = true →
    writeScopeAllowsPath otherEnv otherScope target.lexicallyNormal otherDirectory =
      writeScopeAllowsPath env scope target.lexicallyNormal pluginDirectory

/-- An absolute base path lies in the directory the scope is named after, and it is the root
or ends in dots. -/
structure BaseConfined (base : LexicalPath Bytes) : Prop where
  pluginData : scope.HasKind "plugin-data" → pluginDirectory.normalParts <+: base.normalParts
  userHome : scope.HasKind "user-home-subpath" → ∀ home, env.home = some home →
    home.absolute = true ∧ home.normalParts <+: base.normalParts
  slashes : base.normalParts = [] ∨ base.endsInDots = true

variable {env scope pluginDirectory}

theorem writeScopeAllowsPath_base {base : LexicalPath Bytes}
    (found : scopeBase env scope pluginDirectory = some base) (target : LexicalPath Bytes) :
    writeScopeAllowsPath env scope target pluginDirectory = target.hasPrefix base.lexicallyNormal := by
  unfold scopeBase at found
  unfold writeScopeAllowsPath
  generalize toLowerCopy scope.kind = kind at found
  dsimp only at found ⊢
  have writable : kind ≠ bytes "read-only" := by
    rintro rfl
    simp +decide at found
  rw [if_neg writable]
  split at found
  · rename_i temp
    cases found
    rw [if_pos temp]
  rename_i noTemp
  rw [if_neg noTemp]
  split at found
  · rename_i data
    cases found
    rw [if_pos data]
  rename_i noData
  rw [if_neg noData]
  split at found
  · rename_i cache
    cases found
    rw [if_pos cache]
  rename_i noCache
  rw [if_neg noCache]
  split at found
  · rename_i user
    rw [if_pos user]
    cases home : env.home with
    | none => simp [home] at found
    | some directory =>
        cases empty : directory.isEmpty with
        | true => simp [home, empty] at found
        | false =>
            simp only [home, Option.filter_some, empty, Bool.not_false, if_true, Option.map_some,
              Option.some.injEq] at found
            subst found
            simp [empty]
  · cases found

theorem scopeBase_pluginData (isPluginData : scope.HasKind "plugin-data") :
    scopeBase env scope pluginDirectory = some (joinScope pluginDirectory scope.value) := by
  unfold scopeBase
  rw [show toLowerCopy scope.kind = bytes "plugin-data" from isPluginData]
  simp +decide

theorem scopeBase_userHome (isHome : scope.HasKind "user-home-subpath") :
    scopeBase env scope pluginDirectory =
      (env.home.filter fun home => !home.isEmpty).map fun home => joinScope home scope.value := by
  unfold scopeBase
  rw [show toLowerCopy scope.kind = bytes "user-home-subpath" from isHome]
  simp +decide

theorem writeScopeAllowsPath_noHome (isHome : scope.HasKind "user-home-subpath")
    (noBase : scopeBase env scope pluginDirectory = none) (target : LexicalPath Bytes) :
    writeScopeAllowsPath env scope target pluginDirectory = false := by
  rw [scopeBase_userHome isHome] at noBase
  unfold writeScopeAllowsPath
  rw [show toLowerCopy scope.kind = bytes "user-home-subpath" from isHome]
  cases home : env.home with
  | none => simp +decide
  | some directory =>
      cases empty : directory.isEmpty with
      | true => simp +decide [empty]
      | false => simp [home, empty] at noBase

/-- Any path is the base of a scope of the same kind. -/
theorem exists_scopeBase {base : LexicalPath Bytes} (found : scopeBase env scope pluginDirectory = some base)
    (other : LexicalPath Bytes) (present : other.isEmpty = false) :
    ∃ otherEnv otherDirectory,
      scopeBase otherEnv { scope with value := [] } otherDirectory = some other := by
  refine ⟨{ env with tempDirectory := other, cacheDirectory := other, home := some other }, other, ?_⟩
  unfold scopeBase at found ⊢
  dsimp only at found ⊢
  split
  · rfl
  split
  · rfl
  split
  · rfl
  split
  · simp [present, joinScope]
  · simp_all

/-- With a base path there is a home directory it was joined to. -/
theorem scopeBase_home {base : LexicalPath Bytes} (isHome : scope.HasKind "user-home-subpath")
    (found : scopeBase env scope pluginDirectory = some base) : ∃ home, env.home = some home := by
  rw [scopeBase_userHome isHome] at found
  cases home : env.home with
  | none => simp [home] at found
  | some directory => exact ⟨directory, rfl⟩

theorem baseConfined_of_contains (contains : ScopeContains env scope pluginDirectory) {base : LexicalPath Bytes}
    (found : scopeBase env scope pluginDirectory = some base) (absolute : base.absolute = true) :
    BaseConfined env scope pluginDirectory base where
  pluginData := by
    intro isPluginData
    have confines : Confines pluginDirectory base := by
      intro path pathAbsolute starts
      apply contains.pluginData isPluginData path pathAbsolute
      rw [writeScopeAllowsPath_base found, starts]
    exact (confines_iff.1 confines absolute).2
  userHome := by
    intro isHome home isHomeDirectory
    have confines : Confines home base := by
      intro path pathAbsolute starts
      obtain ⟨directory, found', inside⟩ := contains.userHome isHome path pathAbsolute
        (by rw [writeScopeAllowsPath_base found, starts])
      rw [isHomeDirectory, Option.some.injEq] at found'
      rwa [found']
    exact confines_iff.1 confines absolute
  slashes := by
    have blind : SlashBlind base := by
      intro other sameRoot sameParts path pathAbsolute
      have present : other.isEmpty = false := by simp [isEmpty, sameRoot, absolute]
      obtain ⟨otherEnv, otherDirectory, otherFound⟩ := exists_scopeBase found other present
      have same := contains.slashes otherEnv { scope with value := [] } otherDirectory base other rfl found otherFound
        sameRoot sameParts path pathAbsolute
      rwa [writeScopeAllowsPath_base found, writeScopeAllowsPath_base otherFound] at same
    exact slashBlind_iff.1 blind absolute

/-- A scope contains what it names if and only if its base path, unless it is relative, begins
with the directory after normalisation and stays as it is when a slash is put behind it. -/
theorem scope_contains_iff (env : ExecutionEnvironment) (scope : PluginWriteScope)
    (pluginDirectory : LexicalPath Bytes) (pluginAbsolute : pluginDirectory.absolute = true) :
    ScopeContains env scope pluginDirectory ↔
      ∀ base, scopeBase env scope pluginDirectory = some base → base.absolute = true →
        BaseConfined env scope pluginDirectory base := by
  constructor
  · intro contains base found absolute
    exact baseConfined_of_contains contains found absolute
  · intro confined
    refine ⟨?_, ?_, ?_⟩
    · intro isPluginData target targetAbsolute allowed
      have found := @scopeBase_pluginData env scope pluginDirectory isPluginData
      rw [writeScopeAllowsPath_base found] at allowed
      refine confines_iff.2 (fun absolute => ⟨pluginAbsolute, ?_⟩) target targetAbsolute allowed
      exact (confined _ found absolute).pluginData isPluginData
    · intro isHome target targetAbsolute allowed
      cases found : scopeBase env scope pluginDirectory with
      | none => simp [writeScopeAllowsPath_noHome isHome found] at allowed
      | some base =>
          obtain ⟨home, isHomeDirectory⟩ := scopeBase_home isHome found
          rw [writeScopeAllowsPath_base found] at allowed
          refine ⟨home, isHomeDirectory, ?_⟩
          exact confines_iff.2 (fun absolute => (confined base found absolute).userHome isHome home isHomeDirectory)
            target targetAbsolute allowed
    · intro otherEnv otherScope otherDirectory base otherBase _ found otherFound sameRoot sameParts target targetAbsolute
      rw [writeScopeAllowsPath_base found, writeScopeAllowsPath_base otherFound]
      have blind : SlashBlind base := slashBlind_iff.2 fun absolute => (confined base found absolute).slashes
      exact blind otherBase sameRoot sameParts target targetAbsolute

theorem scope_contains_own_directory :
    ScopeContains { currentPath := none, tempDirectory := {}, cacheDirectory := {}, home := none }
      { kind := bytes "plugin-data", value := bytes "." } (pathOf (bytes "/opt/plugin")) := by
  refine (scope_contains_iff _ _ (pathOf (bytes "/opt/plugin")) (by decide +kernel)).mpr ?_
  intro base found _
  rw [scopeBase_pluginData (by decide +kernel), Option.some.injEq] at found
  subst found
  refine ⟨fun _ => ?_, fun isHome => ?_, Or.inr (by decide +kernel)⟩
  · decide +kernel
  · exact absurd isHome (by decide +kernel)

/-- An absolute value replaces the plugin directory, and a home directory with a slash at its
end shuts its own subpaths out. -/
theorem absolute_value_escapes :
    let env : ExecutionEnvironment :=
      { currentPath := none, tempDirectory := {}, cacheDirectory := {}, home := some (pathOf (bytes "/home/u")) }
    let slashed := { env with home := some (pathOf (bytes "/home/u/")) }
    let data : PluginWriteScope := { kind := bytes "plugin-data", value := bytes "/etc" }
    let user : PluginWriteScope := { kind := bytes "user-home-subpath" }
    let plugin := pathOf (bytes "/opt/plugin")
    writeScopeAllowsPath env data (pathOf (bytes "/etc/passwd")).lexicallyNormal plugin = true ∧
      ¬ ScopeContains env data plugin ∧
      writeScopeAllowsPath env user (pathOf (bytes "/home/u/a")).lexicallyNormal plugin = true ∧
      writeScopeAllowsPath slashed user (pathOf (bytes "/home/u/a")).lexicallyNormal plugin = false ∧
      ¬ ScopeContains env user plugin := by
  intro env slashed data user plugin
  refine ⟨by decide +kernel, fun contains => ?_, by decide +kernel, by decide +kernel, fun contains => ?_⟩
  · have inside := (contains.pluginData (by decide +kernel) (pathOf (bytes "/etc/passwd")) (by decide +kernel)
      (by decide +kernel)).2
    exact absurd inside (by decide +kernel)
  · have same := contains.slashes slashed user plugin (pathOf (bytes "/home/u")) (pathOf (bytes "/home/u/")) rfl
      (by decide +kernel) (by decide +kernel) (by decide +kernel) (by decide +kernel)
      (pathOf (bytes "/home/u/a")) (by decide +kernel)
    exact absurd same (by decide +kernel)

end Bases

end ReqPack.PluginHost
