import ReqPack.Core.Package
import ReqPack.Data.Bytes

/-! # Configuration flags on a command line

`extract_cli_config_overrides` collects the configuration flags among the arguments of
a command, and `apply_config_overrides` lays them over a configuration.  Flags for parts
of the configuration that are left out here are consumed all the same.
-/

namespace ReqPack.Config

open ReqPack.Data
open ReqPack.Data.Ascii

inductive ExecutionJobsMode
  | fixed
  | max
deriving DecidableEq, Repr

structure ReqPackConfigOverrides where
  jobs : Option Nat
  jobsMode : Option ExecutionJobsMode
  registryPath : Option Bytes
  pluginDirectory : Option Bytes
  sbomDefaultOutputPath : Option Bytes
  errorMessage : Option Bytes
deriving DecidableEq, Repr

def ReqPackConfigOverrides.none : ReqPackConfigOverrides := ⟨.none, .none, .none, .none, .none, .none⟩

structure RegistryConfig where
  databasePath : Bytes
  pluginDirectory : Bytes
deriving DecidableEq, Repr

structure SbomConfig where
  defaultOutputPath : Bytes
deriving DecidableEq, Repr

structure RemoteConfig where
  readonly : Bool
  maxConnections : Int
deriving DecidableEq, Repr

structure ReqPackConfig where
  registry : RegistryConfig
  sbom : SbomConfig
  remote : RemoteConfig
deriving DecidableEq, Repr

/-- `~` and `~/` stand for the home directory of the invoking user. -/
def expandUserPath (home raw : Bytes) : Bytes :=
  if raw = bytes "~" then home
  else if (bytes "~/").isPrefixOf raw then joinPath home (raw.drop 2)
  else raw

def applyConfigOverrides (home : Bytes) (base : ReqPackConfig) (overrides : ReqPackConfigOverrides) :
    ReqPackConfig :=
  { base with
    registry :=
      { databasePath := (overrides.registryPath.map (expandUserPath home)).getD base.registry.databasePath
        pluginDirectory :=
          (overrides.pluginDirectory.map (expandUserPath home)).getD base.registry.pluginDirectory }
    sbom :=
      { defaultOutputPath :=
          (overrides.sbomDefaultOutputPath.map (expandUserPath home)).getD base.sbom.defaultOutputPath } }

/-- What `consume_cli_config_flag` did with an argument: nothing, or it took the
argument alone or with the one behind it. -/
inductive Consumed
  | rejected
  | alone (overrides : ReqPackConfigOverrides)
  | withValue (overrides : ReqPackConfigOverrides)
deriving DecidableEq, Repr

/-- Flags without a value; they set parts of the configuration that are left out. -/
def switchFlags : List String :=
  ["--log-console", "--no-log-console", "--verbose", "-v", "--log-capture-display",
   "--no-log-capture-display", "--backtrace", "--dry-run", "-n", "--json", "--audit",
   "--no-security", "--prompt-on-unsafe", "--abort-on-unsafe", "--fail-on-unresolved-version",
   "--prompt-on-unresolved-version", "--strict-ecosystem-mapping",
   "--include-withdrawn-in-report", "--fail-on-findings", "--no-fail-on-findings", "--report",
   "--no-auto-load-plugins", "--no-proxy-expansion", "--stop-on-first-failure",
   "--no-transaction-db", "--non-interactive", "-y", "--yes", "--sbom-no-pretty",
   "--sbom-no-dependency-edges", "--sbom-skip-missing-packages", "--sbom-fail-on-missing-package"]

/-- Flags with a value for a part of the configuration that is left out. -/
def otherValueFlags : List String :=
  ["--config", "-c", "--log-level", "--log-pattern", "--log-file", "--structured-log-file",
   "--on-unsafe", "--severity-threshold", "--score-threshold", "--osv-db", "--osv-feed",
   "--osv-refresh", "--osv-refresh-interval", "--osv-overlay", "--ignore-vuln", "--allow-vuln",
   "--on-unresolved", "--security-preset", "--report-format", "--report-output",
   "--archive-password", "--sbom-format"]

def listed (flags : List String) (argument : Bytes) : Bool := flags.any fun flag => bytes flag == argument

/-- The text behind a prefix such as `--registry=`, when there is any. -/
def inlineValue (leading : String) (argument : Bytes) : Option Bytes :=
  if (bytes leading).isPrefixOf argument && (bytes leading).length < argument.length then
    some (argument.drop (bytes leading).length)
  else none

def unsignedIntFromString (value : Bytes) : Option Nat :=
  let trimmed := (value.dropWhile isSpace).rdropWhile isSpace
  (readUnsigned trimmed).bind fun parsed =>
    if parsed.2.isEmpty && parsed.1 != 0 && parsed.1 < 2 ^ 32 then some parsed.1 else none

def consumeJobs (value : Bytes) (overrides : ReqPackConfigOverrides) : ReqPackConfigOverrides :=
  if overrides.jobsMode = some .max then
    { overrides with errorMessage := some (bytes "cannot combine --jobs with --jobs-max") }
  else if value = bytes "max" ∨ value = bytes "0" then { overrides with jobsMode := some .max }
  else
    match unsignedIntFromString value with
    | none => { overrides with errorMessage := some (bytes "invalid value for --jobs: " ++ value) }
    | some parsedJobs => { overrides with jobs := some parsedJobs, jobsMode := some .fixed }

/-- A flag that is ignored when no value stands behind it. -/
def takeValue (following : Option Bytes) (overrides : ReqPackConfigOverrides)
    (set : Bytes → ReqPackConfigOverrides) : Consumed :=
  match following with
  | none => .alone overrides
  | some value => .withValue (set value)

/-- A flag that needs a value. -/
def requireValue (following : Option Bytes) (overrides : ReqPackConfigOverrides) (message : String)
    (set : Bytes → ReqPackConfigOverrides) : Consumed :=
  match following with
  | none => .alone { overrides with errorMessage := some (bytes message) }
  | some value => .withValue (set value)

def consumeCliConfigFlag (argument : Bytes) (following : Option Bytes)
    (overrides : ReqPackConfigOverrides) : Consumed :=
  if (bytes "-D").isPrefixOf argument then .alone overrides
  else if (inlineValue "--config=" argument).isSome || (inlineValue "-c=" argument).isSome then
    .alone overrides
  else if listed otherValueFlags argument then takeValue following overrides fun _ => overrides
  else if listed switchFlags argument then .alone overrides
  else if argument = bytes "--log-category" then
    requireValue following overrides "missing value for --log-category" fun _ => overrides
  else if argument = bytes "--jobs" ∨ argument = bytes "-j" then
    requireValue following overrides "missing value for --jobs" fun value => consumeJobs value overrides
  else if argument = bytes "--jobs-max" then
    .alone (if overrides.jobs.isSome then
        { overrides with errorMessage := some (bytes "cannot combine --jobs with --jobs-max") }
      else { overrides with jobsMode := some .max })
  else if argument = bytes "--plugin-dir" then
    takeValue following overrides fun value => { overrides with pluginDirectory := some value }
  else if argument = bytes "--registry" ∨ argument = bytes "--registry-path" then
    takeValue following overrides fun value => { overrides with registryPath := some value }
  else
    match inlineValue "--registry=" argument, inlineValue "--registry-path=" argument with
    | some value, _ => .alone { overrides with registryPath := some value }
    | none, some value => .alone { overrides with registryPath := some value }
    | none, none =>
        if (inlineValue "--archive-password=" argument).isSome then .alone overrides
        else if argument = bytes "--sbom-output" then
          takeValue following overrides fun value => { overrides with sbomDefaultOutputPath := some value }
        else .rejected

/-- The loop of `extract_cli_config_overrides`, which an error message ends. -/
def extractFrom (overrides : ReqPackConfigOverrides) : List Bytes → ReqPackConfigOverrides
  | [] => overrides
  | [argument] =>
      match consumeCliConfigFlag argument none overrides with
      | .rejected => overrides
      | .alone consumed => consumed
      | .withValue consumed => consumed
  | argument :: value :: rest =>
      match consumeCliConfigFlag argument (some value) overrides with
      | .rejected => extractFrom overrides (value :: rest)
      | .alone consumed =>
          if consumed.errorMessage.isSome then consumed else extractFrom consumed (value :: rest)
      | .withValue consumed =>
          if consumed.errorMessage.isSome then consumed else extractFrom consumed rest

def extractCliConfigOverrides (arguments : List Bytes) : ReqPackConfigOverrides :=
  extractFrom .none arguments

def actionTokens : List (String × Core.ActionType) :=
  [("install", .install), ("i", .install), ("remove", .remove), ("rm", .remove), ("update", .update),
   ("up", .update), ("search", .search), ("s", .search), ("find", .search), ("list", .list),
   ("ls", .list), ("info", .info), ("ensure", .ensure), ("sbom", .sbom), ("audit", .audit),
   ("outdated", .outdated), ("out", .outdated), ("host", .host), ("snapshot", .snapshot),
   ("pack", .pack), ("serve", .serve), ("remote", .remote)]

def parseActionToken (command : Bytes) : Core.ActionType :=
  ((actionTokens.find? fun entry => bytes entry.1 == toLowerCopy command).map Prod.snd).getD .unknown

end ReqPack.Config
