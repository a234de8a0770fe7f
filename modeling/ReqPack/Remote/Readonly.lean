import ReqPack.Remote.Authorization

/-! # A readonly server

What the work of a command may touch on a readonly server, and the flags of a client that
decide whether it keeps to that.
-/

namespace ReqPack.Remote

open ReqPack.Data
open ReqPack.Data.Ascii
open ReqPack.Config
open ReqPack.Core (ActionType)

/-! ## What work touches -/

/-- `SbomExporter::resolveOutputPath`. -/
def sbomOutputPath (config : ReqPackConfig) (request : Request) : Bytes :=
  if request.outputPath.isEmpty then config.sbom.defaultOutputPath else request.outputPath

/-- Where the report of an orchestrator goes: to standard output when it is empty, else
to a file.  The first request decides. -/
def reportPath (config : ReqPackConfig) (requests : List Request) : Bytes :=
  match requests with
  | [] => []
  | request :: _ =>
      if request.action = .sbom then sbomOutputPath config request
      else if request.action = .audit then request.outputPath
      else []

/-- The directories `ensure_request_plugins_discovered` scans: the configured one and
`plugins` in the working directory. -/
def scannedDirectories (env : ServerEnv) (config : ReqPackConfig) : List Bytes :=
  match env.workspacePlugins with
  | none => [config.registry.pluginDirectory]
  | some workspace =>
      if workspace = config.registry.pluginDirectory then [config.registry.pluginDirectory]
      else [config.registry.pluginDirectory, workspace]

/-- An effect that only reads, and only what the server's own configuration names. -/
def Effect.Readonly (env : ServerEnv) (own : ReqPackConfig) : Effect → Prop
  | .work requests config =>
      (∀ request ∈ requests, request.action ∈ readonlyActions) ∧ reportPath config requests = [] ∧
        config.registry.databasePath = own.registry.databasePath ∧
        ∀ directory ∈ scannedDirectories env config, directory = own.registry.pluginDirectory
  | .securityStatus config =>
      config.registry.databasePath = own.registry.databasePath ∧
        config.registry.pluginDirectory = own.registry.pluginDirectory
  | .shutdown | .countConnections | .listConnections | .reloadConfig _ => False
  | .versionPrint => True

/-! ## Which commands start work -/

/-- The tokens of a line that is no command of the server itself. -/
def workTokens (commandLine : Bytes) : Option (List Bytes) :=
  let trimmed := trimCopy commandLine
  if trimmed.isEmpty || commandRequiresClose trimmed then none
  else
    match tokenizeCommandLine trimmed with
    | [] => none
    | first :: rest =>
        if first = bytes "shutdown" ∨ first = bytes "reload-config" ∨
            (first = bytes "connections" ∧ (rest = [bytes "count"] ∨ rest = [bytes "list"])) then none
        else some (first :: rest)

variable (env : ServerEnv) (state : RemoteServerState) (tokens : List Bytes)

def mergedTokens : List Bytes := mergedCommandArguments tokens state.options.inheritedArguments

def lineOverrides : ReqPackConfigOverrides := extractCliConfigOverrides (mergedTokens state tokens)

/-- The configuration of the server with the flags of the line laid over it. -/
def lineConfig : ReqPackConfig := applyConfigOverrides env.home state.config (lineOverrides state tokens)

def lineRequests : List Request := (env.parse (mergedTokens state tokens) (lineConfig env state tokens)).1

/-- Neither a flag nor the policy on command lines refuses the line. -/
structure LineAccepted : Prop where
  flags : (lineOverrides state tokens).errorMessage = none
  policy : commandLineBlockedInReadonlyMode (mergedTokens state tokens) = false

/-- The policies let the requests of the line through. -/
structure WorkAdmitted : Prop extends LineAccepted state tokens where
  parsed : lineRequests env state tokens ≠ []
  nested : ((lineRequests env state tokens).any fun request => request.action == .serve) = false
  allowed : requestsAllowedInReadonlyMode (lineRequests env state tokens) = true

/-- The line asks for the security status. -/
structure StatusAdmitted : Prop extends LineAccepted state tokens where
  unparsed : lineRequests env state tokens = []
  silent : (env.parse (mergedTokens state tokens) (lineConfig env state tokens)).2 = []
  status : isSecurityStatusOrDoctorCommand (mergedTokens state tokens) = true

/-- A flag names no registry and no plugin directory but the server's own. -/
structure KeepsDirectories : Prop where
  registry : ∀ path, (lineOverrides state tokens).registryPath = some path →
    expandUserPath env.home path = state.config.registry.databasePath
  plugins : ∀ path, (lineOverrides state tokens).pluginDirectory = some path →
    expandUserPath env.home path = state.config.registry.pluginDirectory

/-- The working directory brings no further plugins, and a bill of materials has no
output path by a flag or by configuration. -/
structure KeepsToServer : Prop extends KeepsDirectories env state tokens where
  workspace : ∀ directory, env.workspacePlugins = some directory →
    directory = state.config.registry.pluginDirectory
  report : (lineRequests env state tokens).head?.any (fun request => request.action == .sbom) = true →
    (lineConfig env state tokens).sbom.defaultOutputPath = []

variable {env state tokens}

theorem lineConfig_registry_iff :
    (lineConfig env state tokens).registry.databasePath = state.config.registry.databasePath ∧
        (lineConfig env state tokens).registry.pluginDirectory = state.config.registry.pluginDirectory ↔
      KeepsDirectories env state tokens := by
  have keeps {override : Option Bytes} {own : Bytes} :
      (override.map (expandUserPath env.home)).getD own = own ↔
        ∀ path, override = some path → expandUserPath env.home path = own := by
    cases override with
    | none => simp
    | some path => simp
  simp only [lineConfig, applyConfigOverrides, keeps]
  exact ⟨fun holds => ⟨holds.1, holds.2⟩, fun holds => ⟨holds.registry, holds.plugins⟩⟩

theorem scannedDirectories_iff {config : ReqPackConfig} {own : Bytes} :
    (∀ directory ∈ scannedDirectories env config, directory = own) ↔
      config.registry.pluginDirectory = own ∧
        ∀ directory, env.workspacePlugins = some directory → directory = own := by
  simp only [scannedDirectories]
  cases env.workspacePlugins with
  | none => simp
  | some workspace =>
      by_cases same : workspace = config.registry.pluginDirectory
      · simp [same]
      · simp [same]

/-- Requests the policy lets through have no output path of their own. -/
theorem reportPath_iff {config : ReqPackConfig} {requests : List Request}
    (allowed : requestsAllowedInReadonlyMode requests = true) :
    reportPath config requests = [] ↔
      (requests.head?.any (fun request => request.action == .sbom) = true →
        config.sbom.defaultOutputPath = []) := by
  simp only [requestsAllowedInReadonlyMode, Bool.and_eq_true, List.all_eq_true, decide_eq_true_eq] at allowed
  cases requests with
  | nil => simp [reportPath]
  | cons request rest =>
      have empty := (allowed.2 request List.mem_cons_self).2
      simp only [List.isEmpty_iff] at empty
      by_cases sbom : request.action = .sbom
      · simp [reportPath, sbom, sbomOutputPath, empty]
      · simp [reportPath, sbom, empty]

theorem work_readonly_iff (allowed : requestsAllowedInReadonlyMode (lineRequests env state tokens) = true) :
    Effect.Readonly env state.config (.work (lineRequests env state tokens) (lineConfig env state tokens)) ↔
      KeepsToServer env state tokens := by
  have actions : ∀ request ∈ lineRequests env state tokens, request.action ∈ readonlyActions := by
    simp only [requestsAllowedInReadonlyMode, Bool.and_eq_true, List.all_eq_true, decide_eq_true_eq] at allowed
    exact fun request member => (allowed.2 request member).1
  simp only [Effect.Readonly, reportPath_iff allowed, scannedDirectories_iff]
  have directories := @lineConfig_registry_iff env state tokens
  apply Iff.intro
  · intro holds
    exact ⟨directories.mp ⟨holds.2.2.1, holds.2.2.2.1⟩, holds.2.2.2.2, holds.2.1⟩
  · intro keeps
    have kept := directories.mpr keeps.toKeepsDirectories
    exact ⟨actions, keeps.report, kept.1, kept.2, keeps.workspace⟩

theorem executeWork_admitted (readonly : state.options.readonly = true) {trimmed : Bytes}
    (admitted : WorkAdmitted env state tokens) :
    (executeWork env state trimmed tokens).2 =
      [.work (lineRequests env state tokens) (lineConfig env state tokens)] := by
  obtain ⟨⟨flags, policy⟩, parsed, nested, allowed⟩ := admitted
  simp only [lineRequests, lineConfig, lineOverrides, mergedTokens] at flags policy parsed nested allowed ⊢
  simp only [executeWork, snapshotRemoteState, flags, policy, readonly, nested, allowed, Bool.and_false,
    Bool.not_true, List.isEmpty_eq_false_iff.mpr parsed, Bool.false_eq_true, if_false]

theorem executeWork_status (readonly : state.options.readonly = true) {trimmed : Bytes}
    (admitted : StatusAdmitted env state tokens) :
    (executeWork env state trimmed tokens).2 = [.securityStatus (lineConfig env state tokens)] := by
  obtain ⟨⟨flags, policy⟩, unparsed, silent, status⟩ := admitted
  simp only [lineRequests, lineConfig, lineOverrides, mergedTokens] at flags policy unparsed silent status ⊢
  simp only [executeWork, snapshotRemoteState, flags, policy, readonly, unparsed, silent, status, Bool.and_false,
    List.isEmpty_nil, Bool.not_true, Bool.false_eq_true, if_false, if_true]

/-- A line that starts neither prints the version at most. -/
theorem executeWork_neither (readonly : state.options.readonly = true) {trimmed : Bytes}
    (noWork : ¬ WorkAdmitted env state tokens) (noStatus : ¬ StatusAdmitted env state tokens) :
    ∀ effect ∈ (executeWork env state trimmed tokens).2, effect = .versionPrint := by
  intro effect member
  simp only [executeWork, snapshotRemoteState, readonly, Bool.true_and] at member
  split at member
  · cases member
  · rename_i flags
    split at member
    · cases member
    · rename_i accepted
      have line : LineAccepted state tokens := ⟨flags, Bool.eq_false_iff.mpr accepted⟩
      split at member
      · rename_i unparsed
        split at member
        · cases member
        · rename_i silent
          split at member
          · rename_i status
            simp only [Bool.not_eq_true', Bool.not_eq_false, List.isEmpty_iff] at silent
            have admitted : StatusAdmitted env state tokens :=
              ⟨line, List.isEmpty_iff.mp unparsed, silent, status⟩
            exact absurd admitted noStatus
          · split at member
            · exact List.mem_singleton.mp member
            · cases member
      · rename_i parsed
        split at member
        · cases member
        · rename_i nested
          split at member
          · cases member
          · rename_i allowed
            simp only [Bool.not_eq_true', Bool.not_eq_false] at allowed
            have admitted : WorkAdmitted env state tokens :=
              ⟨line, fun none => parsed (List.isEmpty_iff.mpr none), Bool.eq_false_iff.mpr nested, allowed⟩
            exact absurd admitted noWork

/-- The effects of a line on a readonly server. -/
theorem executeWork_readonly (readonly : state.options.readonly = true) (trimmed : Bytes) :
    (∀ effect ∈ (executeWork env state trimmed tokens).2, effect.Readonly env state.config) ↔
      (WorkAdmitted env state tokens → KeepsToServer env state tokens) ∧
        (StatusAdmitted env state tokens → KeepsDirectories env state tokens) := by
  by_cases work : WorkAdmitted env state tokens
  · have noStatus : ¬ StatusAdmitted env state tokens := fun status => work.parsed status.unparsed
    simp only [executeWork_admitted readonly work, List.mem_singleton, forall_eq, work, noStatus, true_implies,
      false_implies, and_true]
    exact work_readonly_iff work.allowed
  · by_cases status : StatusAdmitted env state tokens
    · simp only [executeWork_status readonly status, List.mem_singleton, forall_eq, work, status, true_implies,
        false_implies, true_and]
      exact lineConfig_registry_iff
    · simp only [work, status, false_implies, and_true, iff_true]
      intro effect member
      rw [executeWork_neither readonly work status effect member]
      exact True.intro

/-- A line keeps to what the configuration of the server names. -/
def KeepsReadonly (env : ServerEnv) (state : RemoteServerState) (commandLine : Bytes) : Prop :=
  ∀ tokens, workTokens commandLine = some tokens →
    (WorkAdmitted env state tokens → KeepsToServer env state tokens) ∧
      (StatusAdmitted env state tokens → KeepsDirectories env state tokens)

theorem executeCommand_effects {source : ReloadSource} {identity : SessionIdentity} {commandLine : Bytes}
    (ordinary : identity.isAdmin = false) :
    (executeCommand env source identity commandLine state).effects =
      match workTokens commandLine with
      | some tokens => (executeWork env state (trimCopy commandLine) tokens).2
      | none => [] := by
  simp only [executeCommand, workTokens, ordinary, adminRequired]
  cases empty : (trimCopy commandLine).isEmpty with
  | true => rfl
  | false =>
      cases closing : commandRequiresClose (trimCopy commandLine) with
      | true => rfl
      | false =>
          cases split : tokenizeCommandLine (trimCopy commandLine) with
          | nil => rfl
          | cons first rest =>
              by_cases shutdown : first = bytes "shutdown"
              · simp [shutdown]
              · by_cases reload : first = bytes "reload-config"
                · simp [reload, show bytes "reload-config" ≠ bytes "connections" by decide]
                · by_cases count : first = bytes "connections" ∧ rest = [bytes "count"]
                  · simp [count]
                  · by_cases list : first = bytes "connections" ∧ rest = [bytes "list"]
                    · simp [list]
                    · have both : ¬ (first = bytes "connections" ∧
                          (rest = [bytes "count"] ∨ rest = [bytes "list"])) := by
                        rintro ⟨connections, counted | listed⟩
                        · exact count ⟨connections, counted⟩
                        · exact list ⟨connections, listed⟩
                      simp [shutdown, reload, count, list, both]

theorem executeCommand_readonly (readonly : state.options.readonly = true) {source : ReloadSource}
    {identity : SessionIdentity} {commandLine : Bytes} (ordinary : identity.isAdmin = false) :
    (∀ effect ∈ (executeCommand env source identity commandLine state).effects,
        effect.Readonly env state.config) ↔ KeepsReadonly env state commandLine := by
  rw [executeCommand_effects ordinary, KeepsReadonly]
  cases workTokens commandLine with
  | none => simp
  | some tokens =>
      simp only [Option.some.injEq, forall_eq']
      exact executeWork_readonly readonly _

/-! ## Runs -/

/-- A reload that leaves the server readonly: it does not look at the configuration when
the option was given at the start, and finds it set there otherwise. -/
def ReloadKeepsReadonly (explicitly : Bool) (source : ReloadSource) : Prop :=
  ∀ config users, source = .ok (config, users) → explicitly = true ∨ config.remote.readonly = true

/-- Every reload an input may bring leaves the server readonly. -/
def Input.KeepsReadonly (explicitly : Bool) : Input → Prop
  | .reload source | .execute source | .store _ source => ReloadKeepsReadonly explicitly source
  | .read | .authenticate | .storeFails => True

/-- What holds of the options of a server throughout. -/
structure StaysReadonly (explicitly : Bool) (server : RemoteServerState) : Prop where
  readonly : server.options.readonly = true
  explicitly : server.options.readonlyExplicit = explicitly

theorem afterReload_readonly {explicitly : Bool} {source : ReloadSource}
    (stays : StaysReadonly explicitly state) (keeps : ReloadKeepsReadonly explicitly source) :
    StaysReadonly explicitly (afterReload env source state) := by
  cases source with
  | error message => exact stays
  | ok loaded =>
      obtain ⟨config, users⟩ := loaded
      have remote : (reloadedConfig env state.configOverrides config).remote = config.remote := by
        simp only [reloadedConfig]
        split
        · split <;> rfl
        · rfl
      simp only [afterReload, reloadRemoteState]
      apply StaysReadonly.mk
      · simp only [reloadedOptions, stays.explicitly, stays.readonly, remote]
        rcases keeps config users rfl with given | read
        · simp [given]
        · simp [read]
      · exact stays.explicitly

theorem executeCommand_state {source : ReloadSource} {identity : SessionIdentity} {commandLine : Bytes}
    {explicitly : Bool} (stays : StaysReadonly explicitly state)
    (keeps : ReloadKeepsReadonly explicitly source) :
    StaysReadonly explicitly (executeCommand env source identity commandLine state).state := by
  have reloaded := @afterReload_readonly env state explicitly source stays keeps
  simp only [afterReload] at reloaded
  simp only [executeCommand, adminRequired]
  split
  · exact stays
  · split
    · exact stays
    · split
      · exact stays
      · split
        · split
          · exact ⟨stays.readonly, stays.explicitly⟩
          · exact stays
        · split
          · split <;> exact stays
          · split
            · split <;> exact stays
            · split
              · split
                · split
                  · exact stays
                  · rename_i next loaded
                    rw [loaded] at reloaded
                    exact reloaded
                · exact stays
              · exact stays

namespace Session

variable {sessionId : Nat} {session next : Session}

/-- A step that runs no command: the options stay, and the log grows by other events. -/
structure Quiet (before after : Session) : Prop where
  options : after.server.options = before.server.options
  log : ∀ event ∈ after.log, event.isExecuted = true → event ∈ before.log

theorem still_quiet {server : RemoteServerState} {protocol : ConnectionProtocol} {identity : SessionIdentity}
    {phase : Phase} {input : Bytes} (options : server.options = session.server.options) :
    Quiet session ⟨server, protocol, identity, phase, input, session.log⟩ :=
  ⟨options, fun _ member _ => member⟩

theorem Quiet.record (quiet : Quiet session next) {events : List Event}
    (others : ∀ event ∈ events, event.isExecuted = false) : Quiet session (next.record events) where
  options := quiet.options
  log event member executed := by
    rcases List.mem_append.mp member with old | new
    · exact quiet.log event old executed
    · rw [others event new] at executed
      cases executed

theorem Quiet.moved (quiet : Quiet session next) {phase : Phase} {input : Bytes} :
    Quiet session { next with phase := phase, input := input } :=
  ⟨quiet.options, quiet.log⟩

theorem Quiet.identified (quiet : Quiet session next) {identity : SessionIdentity} :
    Quiet session (takeIdentity sessionId identity next) where
  options := by
    rw [← quiet.options, takeIdentity]
    split <;> rfl
  log := quiet.log

theorem lookedAt_others {snapshot : RemoteStateSnapshot} {credentials : Option Credentials}
    {identity : SessionIdentity} :
    ∀ event ∈ lookedAt snapshot credentials identity, event.isExecuted = false := by
  intro event member
  simp only [lookedAt] at member
  split at member
  · cases member
  · split at member
    · cases List.mem_singleton.mp member
      rfl
    · split at member
      · cases member
      · cases List.mem_singleton.mp member
        rfl

theorem setSessionProtocol_options {protocol : ConnectionProtocol} :
    (setSessionProtocol sessionId protocol session.server).options = session.server.options := rfl

theorem openSession_quiet : Quiet session (session.openSession sessionId) := by
  simp only [openSession]
  split
  · exact still_quiet rfl
  · split
    · exact still_quiet rfl
    · split
      · refine Quiet.record (still_quiet setSessionProtocol_options) ?_
        simp [Event.isExecuted]
      · refine Quiet.record (Quiet.identified (still_quiet setSessionProtocol_options)) ?_
        simp [Event.isExecuted]

theorem readNext_quiet : Quiet session session.readNext := by
  simp only [readNext]
  split
  · exact still_quiet rfl
  · refine Quiet.record (still_quiet rfl) ?_
    simp [Event.isExecuted]

theorem authenticateText_quiet {line : Bytes} : Quiet session (session.authenticateText sessionId line) := by
  simp only [authenticateText]
  split
  · exact (((still_quiet rfl).record lookedAt_others).identified).moved
  · exact (((still_quiet rfl).record lookedAt_others).identified).moved

theorem authenticateJson_quiet {line : Bytes} : Quiet session (session.authenticateJson sessionId line) := by
  simp only [authenticateJson]
  split
  · exact still_quiet rfl
  · split
    · exact (((still_quiet rfl).record lookedAt_others).identified).moved
    · exact (((still_quiet rfl).record lookedAt_others).identified).moved

theorem readPayload_quiet {envelope : UploadInstallEnvelope} : Quiet session (session.readPayload envelope) := by
  refine Quiet.record (still_quiet rfl) ?_
  simp [Event.isExecuted]

theorem beginUpload_quiet {commandTokens : List Bytes} : Quiet session (session.beginUpload commandTokens) := by
  have reached : Quiet session (session.record [.uploaded session.identity]) := by
    refine Quiet.record (still_quiet rfl) ?_
    simp [Event.isExecuted]
  simp only [beginUpload]
  split
  · exact reached.moved
  · split
    · split
      · exact reached.moved
      · refine reached.moved.record ?_
        simp [Event.isExecuted]
    · exact reached.moved

/-- The options of the server stay readonly, and every command ran on such options. -/
structure ReadonlyRun (env : ServerEnv) (explicitly : Bool) (session : Session) : Prop where
  server : StaysReadonly explicitly session.server
  log : ∀ state identity commandLine effects, Event.executed state identity commandLine effects ∈ session.log →
    state.options.readonly = true ∧
      ∃ source, effects = (executeCommand env source identity commandLine state).effects

variable {explicitly : Bool}

theorem ReadonlyRun.quiet (holds : session.ReadonlyRun env explicitly) (quiet : Quiet session next) :
    next.ReadonlyRun env explicitly where
  server := by
    apply StaysReadonly.mk
    · rw [quiet.options]
      exact holds.server.readonly
    · rw [quiet.options]
      exact holds.server.explicitly
  log state identity commandLine effects member :=
    holds.log state identity commandLine effects (quiet.log _ member rfl)

theorem ReadonlyRun.command (holds : session.ReadonlyRun env explicitly) {source : ReloadSource}
    (keeps : ReloadKeepsReadonly explicitly source) (commandLine : Bytes) :
    (session.runCommand env source commandLine).ReadonlyRun env explicitly where
  server := executeCommand_state holds.server keeps
  log state identity line effects member := by
    rcases List.mem_append.mp member with old | new
    · exact holds.log state identity line effects old
    · cases List.mem_singleton.mp new
      exact ⟨holds.server.readonly, source, rfl⟩

theorem ReadonlyRun.step {input : Input} (keeps : input.KeepsReadonly explicitly)
    (holds : session.ReadonlyRun env explicitly)
    (stepped : sessionStep env sessionId session input = some next) : next.ReadonlyRun env explicitly := by
  cases input with
  | reload source =>
      cases stepped
      exact ⟨afterReload_readonly holds.server keeps, holds.log⟩
  | read =>
      simp only [sessionStep] at stepped
      split at stepped
      · cases stepped
        exact holds.quiet openSession_quiet
      · cases stepped
        exact holds.quiet readNext_quiet
      · cases stepped
  | authenticate =>
      simp only [sessionStep] at stepped
      split at stepped
      · cases stepped
        exact holds.quiet authenticateText_quiet
      · cases stepped
        exact holds.quiet authenticateJson_quiet
      · cases stepped
  | execute source =>
      simp only [sessionStep] at stepped
      split at stepped
      · split at stepped
        · cases stepped
          exact holds.quiet beginUpload_quiet
        · cases stepped
          exact holds.command keeps _
      · cases stepped
  | store uniquePrefix source =>
      simp only [sessionStep, storeUpload] at stepped
      split at stepped
      · rename_i envelope phase
        have stored := holds.quiet (@readPayload_quiet session envelope)
        cases stepped
        split
        · exact stored
        · split
          · exact stored
          · exact stored.command keeps _
      · cases stepped
  | storeFails =>
      simp only [sessionStep] at stepped
      split at stepped
      · cases stepped
        exact holds.quiet readPayload_quiet
      · cases stepped

end Session

/-- A readonly server with one ordinary user. -/
def readonlyServer : RemoteServerState :=
  { openServer with
    options := { openServer.options with readonly := true, readonlyExplicit := true }
    users := [⟨bytes "guest", some (bytes "secret"), none, none, false⟩] }

/-- A command that was started for an ordinary client with the plugins of this directory. -/
def Event.usesPlugins (directory : Bytes) : Event → Bool
  | .executed _ identity _ [.work _ config] => !identity.isAdmin && config.registry.pluginDirectory == directory
  | _ => false

def Event.configuredElsewhere (directory : Bytes) : Event → Bool
  | .executed state _ _ _ => state.config.registry.pluginDirectory != directory
  | _ => false

end ReqPack.Remote
