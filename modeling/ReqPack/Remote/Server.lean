import ReqPack.Config.CliOverrides
import ReqPack.Remote.Wire

/-! # The remote server

What the server does with one command of a client: the shared state and its reloads, the
authentication of a session, the policy of a readonly server and `execute_command`.  The
command line parser, the work behind an accepted command and the files a reload reads are
given by the environment.
-/

namespace ReqPack.Remote

open ReqPack.Data
open ReqPack.Data.Ascii
open ReqPack.Config
open ReqPack.Core (ActionType)

inductive ServeRemoteProtocol
  | text
  | json
  | http
  | https
deriving DecidableEq, Repr

structure ServeRuntimeOptions where
  remoteProtocol : ServeRemoteProtocol
  token : Option Bytes
  username : Option Bytes
  password : Option Bytes
  readonly : Bool
  readonlyExplicit : Bool
  maxConnections : Int
  maxConnectionsExplicit : Bool
  inheritedArguments : List Bytes
deriving DecidableEq, Repr

structure RemoteUser where
  id : Bytes
  token : Option Bytes
  username : Option Bytes
  password : Option Bytes
  isAdmin : Bool
deriving DecidableEq, Repr

structure SessionIdentity where
  authenticated : Bool
  userId : Bytes
  isAdmin : Bool
  authType : Bytes
deriving DecidableEq, Repr

def SessionIdentity.unknown : SessionIdentity := ⟨false, [], false, bytes "none"⟩

def SessionIdentity.anonymous : SessionIdentity := ⟨true, bytes "anonymous", false, bytes "none"⟩

inductive ConnectionProtocol
  | text
  | json
deriving DecidableEq, Repr

structure RemoteSessionInfo where
  id : Nat
  protocol : ConnectionProtocol
  userId : Bytes
  isAdmin : Bool
  authType : Bytes
deriving DecidableEq, Repr

structure RemoteServerState where
  config : ReqPackConfig
  options : ServeRuntimeOptions
  users : List RemoteUser
  sessions : List RemoteSessionInfo
  configOverrides : ReqPackConfigOverrides
  shutdownRequested : Bool
deriving DecidableEq, Repr

structure RemoteStateSnapshot where
  config : ReqPackConfig
  options : ServeRuntimeOptions
  users : List RemoteUser
deriving DecidableEq, Repr

def snapshotRemoteState (state : RemoteServerState) : RemoteStateSnapshot :=
  ⟨state.config, state.options, state.users⟩

def updateSessionIdentity (sessionId : Nat) (identity : SessionIdentity) (state : RemoteServerState) :
    RemoteServerState :=
  { state with
    sessions := state.sessions.map fun session =>
      if session.id = sessionId then
        { session with userId := identity.userId, isAdmin := identity.isAdmin, authType := identity.authType }
      else session }

def setSessionProtocol (sessionId : Nat) (protocol : ConnectionProtocol) (state : RemoteServerState) :
    RemoteServerState :=
  { state with
    sessions := state.sessions.map fun session =>
      if session.id = sessionId then { session with protocol := protocol } else session }

structure Request where
  action : ActionType
  outputPath : Bytes
deriving DecidableEq, Repr

/-- What the server reads or calls outside this model. -/
structure ServerEnv where
  /-- the home directory `~` stands for -/
  home : Bytes
  defaultPluginDirectory : Bytes
  /-- `plugins` in the working directory, when it exists -/
  workspacePlugins : Option Bytes
  tempDirectory : Bytes
  /-- `Cli::parse` and `Cli::lastParseError` -/
  parse : List Bytes → ReqPackConfig → List Request × Bytes
  /-- `Orchestrator::run`: success and the text it printed -/
  orchestrate : List Request → ReqPackConfig → Bool × Bytes
  /-- the security status and whether nothing blocks -/
  securityStatus : ReqPackConfig → Bool × Bytes
  versionLine : ReqPackConfig → Bytes

/-! ## Reloads -/

/-- The configuration and the users as `reload_remote_state` reads them from their files,
or the exception it catches. -/
abbrev ReloadSource := Except Bytes (ReqPackConfig × List RemoteUser)

def reloadedOptions (config : ReqPackConfig) (options : ServeRuntimeOptions) : ServeRuntimeOptions :=
  { options with
    readonly := if options.readonlyExplicit then options.readonly else config.remote.readonly
    maxConnections :=
      if options.maxConnectionsExplicit then options.maxConnections else config.remote.maxConnections }

def reloadedConfig (env : ServerEnv) (overrides : ReqPackConfigOverrides) (loaded : ReqPackConfig) :
    ReqPackConfig :=
  let config := applyConfigOverrides env.home loaded overrides
  match overrides.pluginDirectory, env.workspacePlugins with
  | none, some workspace =>
      if config.registry.pluginDirectory = env.defaultPluginDirectory then
        { config with registry := { config.registry with pluginDirectory := workspace } }
      else config
  | _, _ => config

def reloadRemoteState (env : ServerEnv) (source : ReloadSource) (state : RemoteServerState) :
    Except Bytes RemoteServerState :=
  match source with
  | .error message => .error message
  | .ok (loaded, users) =>
      let config := reloadedConfig env state.configOverrides loaded
      .ok { state with config := config, options := reloadedOptions config state.options, users := users }

/-- The state behind a reload; a failed one changes nothing. -/
def afterReload (env : ServerEnv) (source : ReloadSource) (state : RemoteServerState) : RemoteServerState :=
  match reloadRemoteState env source state with
  | .ok next => next
  | .error _ => state

/-! ## Authentication -/

inductive Credentials
  | token (value : Bytes)
  | basic (username password : Bytes)
deriving DecidableEq, Repr

def hasUserRegistry (snapshot : RemoteStateSnapshot) : Bool := !snapshot.users.isEmpty

def authRequired (snapshot : RemoteStateSnapshot) : Bool :=
  hasUserRegistry snapshot || snapshot.options.token.isSome ||
    (snapshot.options.username.isSome && snapshot.options.password.isSome)

def resolveRemoteUserByToken (snapshot : RemoteStateSnapshot) (token : Bytes) : Option SessionIdentity :=
  (snapshot.users.find? fun user => user.token == some token).map fun user =>
    ⟨true, user.id, user.isAdmin, bytes "token"⟩

def resolveRemoteUserByBasic (snapshot : RemoteStateSnapshot) (username password : Bytes) :
    Option SessionIdentity :=
  (snapshot.users.find? fun user =>
      user.username.getD user.id == username && user.password == some password).map fun user =>
    ⟨true, user.id, user.isAdmin, bytes "basic"⟩

def resolveFallbackIdentityByToken (snapshot : RemoteStateSnapshot) (token : Bytes) :
    Option SessionIdentity :=
  if snapshot.options.token = some token then some ⟨true, bytes "remote", false, bytes "fallback-token"⟩
  else none

def resolveFallbackIdentityByBasic (snapshot : RemoteStateSnapshot) (username password : Bytes) :
    Option SessionIdentity :=
  if snapshot.options.username = some username ∧ snapshot.options.password = some password then
    some ⟨true, username, false, bytes "fallback-basic"⟩
  else none

def resolveIdentity (snapshot : RemoteStateSnapshot) : Credentials → Option SessionIdentity
  | .token value =>
      if hasUserRegistry snapshot then resolveRemoteUserByToken snapshot value
      else resolveFallbackIdentityByToken snapshot value
  | .basic username password =>
      if hasUserRegistry snapshot then resolveRemoteUserByBasic snapshot username password
      else resolveFallbackIdentityByBasic snapshot username password

/-- The credentials of a text line. -/
def textCredentials (line : Bytes) : Option Credentials :=
  match tokenizeCommandLine line with
  | command :: kind :: first :: rest =>
      if command = bytes "auth" ∧ kind = bytes "token" then some (.token first)
      else
        match rest with
        | second :: _ =>
            if command = bytes "auth" ∧ kind = bytes "basic" then some (.basic first second) else none
        | [] => none
  | _ => none

structure JsonCommand where
  command : Bytes
  token : Option Bytes
  username : Option Bytes
  password : Option Bytes
deriving DecidableEq, Repr

def jsonCredentials (command : JsonCommand) : Option Credentials :=
  match command.token, command.username, command.password with
  | some token, _, _ => some (.token token)
  | none, some username, some password => some (.basic username password)
  | none, _, _ => none

inductive CommandOutput
  | message (text : Bytes)
  | connectionCount (count : Nat)
  | connectionList (sessions : List RemoteSessionInfo)
  | captured (text : Bytes)
deriving DecidableEq, Repr

structure RemoteResponse where
  ok : Bool
  output : CommandOutput
  closeConnection : Bool
deriving DecidableEq, Repr

def failure (message : String) : RemoteResponse := ⟨false, .message (bytes message), false⟩

def success (message : String) : RemoteResponse := ⟨true, .message (bytes message), false⟩

/-- What authentication makes of a line or request: the session may go on with it, or it
is answered here. -/
inductive Authentication
  | admitted (identity : SessionIdentity)
  | answered (identity : SessionIdentity) (response : RemoteResponse)
deriving DecidableEq, Repr

def Authentication.identity : Authentication → SessionIdentity
  | .admitted identity => identity
  | .answered identity _ => identity

/-- The common part of the two authentication functions; they differ in what becomes of
a line or request with accepted credentials. -/
def authenticateWith (accepted : SessionIdentity → Authentication) (snapshot : RemoteStateSnapshot)
    (credentials : Option Credentials) (identity : SessionIdentity) : Authentication :=
  if identity.authenticated then .admitted identity
  else if !authRequired snapshot then .admitted .anonymous
  else
    match credentials with
    | none => .answered identity (failure "authentication required")
    | some presented =>
        match resolveIdentity snapshot presented with
        | some resolved => accepted resolved
        | none => .answered identity (failure "authentication failed")

/-- A line with credentials is answered and does nothing else. -/
def authenticateTextCommand (snapshot : RemoteStateSnapshot) (line : Bytes) (identity : SessionIdentity) :
    Authentication :=
  authenticateWith (fun resolved => .answered resolved (success "")) snapshot (textCredentials line) identity

/-- A request with credentials goes on with its command. -/
def authenticateJsonCommand (snapshot : RemoteStateSnapshot) (command : JsonCommand)
    (identity : SessionIdentity) : Authentication :=
  authenticateWith .admitted snapshot (jsonCredentials command) identity

/-! ## The policy of a readonly server -/

def isFlagOnlyToken (token : Bytes) : Bool :=
  (bytes "--").isPrefixOf token || (token.length == 2 && token.head? == some 45 && token.getLast? != some 45)

def stripConfigLikePrefixFlags : List Bytes → List Bytes
  | [] => []
  | [token] =>
      if token = bytes "--config" ∨ token = bytes "-c" ∨ (bytes "--config=").isPrefixOf token ∨
          (bytes "-c=").isPrefixOf token then []
      else [token]
  | token :: value :: rest =>
      if token = bytes "--config" ∨ token = bytes "-c" then stripConfigLikePrefixFlags rest
      else if (bytes "--config=").isPrefixOf token ∨ (bytes "-c=").isPrefixOf token then
        stripConfigLikePrefixFlags (value :: rest)
      else token :: stripConfigLikePrefixFlags (value :: rest)

def isSecurityStatusOrDoctorCommand (tokens : List Bytes) : Bool :=
  match stripConfigLikePrefixFlags tokens with
  | [first, second] =>
      toLowerCopy first == bytes "security" &&
        (toLowerCopy second == bytes "status" || toLowerCopy second == bytes "doctor")
  | _ => false

def isVersionPrintCommand (tokens : List Bytes) : Bool :=
  match stripConfigLikePrefixFlags tokens with
  | [token] => toLowerCopy token == bytes "version" || token == bytes "--version" || token == bytes "-V"
  | _ => false

def isSelfUpdateCommandLine (tokens : List Bytes) : Bool :=
  match stripConfigLikePrefixFlags tokens with
  | [] => false
  | first :: rest =>
      if toLowerCopy first = bytes "self-update" then rest.all isFlagOnlyToken
      else
        parseActionToken first == .update && rest.all fun argument =>
          argument != bytes "--all" && argument != bytes "-a" && argument != bytes "--plugins" &&
            isFlagOnlyToken argument

def commandLineBlockedInReadonlyMode (tokens : List Bytes) : Bool :=
  isSelfUpdateCommandLine tokens ||
    match stripConfigLikePrefixFlags tokens with
    | [] => false
    | first :: rest =>
        if toLowerCopy first = bytes "test-plugin" then true
        else if toLowerCopy first = bytes "plugin" ∧ rest ≠ [] then
          toLowerCopy (rest.headD []) != bytes "info"
        else if toLowerCopy first = bytes "ensure" then true
        else
          parseActionToken first ∈
            [ActionType.install, .remove, .update, .ensure, .pack, .snapshot, .host, .serve, .remote]

def readonlyActions : List ActionType := [.list, .search, .info, .outdated, .sbom, .audit]

def requestsAllowedInReadonlyMode (requests : List Request) : Bool :=
  !requests.isEmpty && requests.all fun request =>
    decide (request.action ∈ readonlyActions) && request.outputPath.isEmpty

/-! ## Commands -/

/-- What a command has the server do. -/
inductive Effect
  | shutdown
  | countConnections
  | listConnections
  | reloadConfig (source : ReloadSource)
  /-- an orchestrator is run -/
  | work (requests : List Request) (config : ReqPackConfig)
  /-- the registry is opened for a security status -/
  | securityStatus (config : ReqPackConfig)
  | versionPrint

/-- The effects only an administrator may have. -/
def Effect.privileged : Effect → Bool
  | .shutdown | .countConnections | .listConnections | .reloadConfig _ => true
  | .work _ _ | .securityStatus _ | .versionPrint => false

structure CommandResult where
  state : RemoteServerState
  response : RemoteResponse
  effects : List Effect

def commandRequiresClose (command : Bytes) : Bool :=
  trimCopy command == bytes "quit" || trimCopy command == bytes "exit"

def adminRequired (state : RemoteServerState) : CommandResult :=
  ⟨state, failure "admin privileges required", []⟩

def mergedCommandArguments (commandTokens inheritedArguments : List Bytes) : List Bytes :=
  commandTokens ++ inheritedArguments

/-- The part of `execute_command` behind the commands of the server itself. -/
def executeWork (env : ServerEnv) (state : RemoteServerState) (trimmed : Bytes) (commandTokens : List Bytes) :
    RemoteResponse × List Effect :=
  let snapshot := snapshotRemoteState state
  let mergedTokens := mergedCommandArguments commandTokens snapshot.options.inheritedArguments
  let overrides := extractCliConfigOverrides mergedTokens
  match overrides.errorMessage with
  | some message => (⟨false, .message message, false⟩, [])
  | none =>
      let effectiveConfig := applyConfigOverrides env.home snapshot.config overrides
      if snapshot.options.readonly && commandLineBlockedInReadonlyMode mergedTokens then
        (failure "remote server is readonly", [])
      else
        let (requests, lastParseError) := env.parse mergedTokens effectiveConfig
        if requests.isEmpty then
          if !lastParseError.isEmpty then (⟨false, .message lastParseError, false⟩, [])
          else if isSecurityStatusOrDoctorCommand mergedTokens then
            let (ok, report) := env.securityStatus effectiveConfig
            (⟨ok, .captured report, false⟩, [.securityStatus effectiveConfig])
          else if isVersionPrintCommand mergedTokens then
            (⟨true, .captured (env.versionLine effectiveConfig ++ [newline]), false⟩, [.versionPrint])
          else if snapshot.options.readonly && commandLineBlockedInReadonlyMode mergedTokens then
            (failure "remote server is readonly", [])
          else (⟨false, .message (bytes "failed to parse " ++ [singleQuote] ++ trimmed ++ [singleQuote]), false⟩, [])
        else if requests.any fun request => request.action == .serve then
          (failure "nested serve commands are not allowed", [])
        else if snapshot.options.readonly && !requestsAllowedInReadonlyMode requests then
          (failure "remote server is readonly", [])
        else
          let (ok, printed) := env.orchestrate requests effectiveConfig
          (⟨ok, .captured printed, false⟩, [.work requests effectiveConfig])

def executeCommand (env : ServerEnv) (source : ReloadSource) (identity : SessionIdentity)
    (commandLine : Bytes) (state : RemoteServerState) : CommandResult :=
  let trimmed := trimCopy commandLine
  if trimmed.isEmpty then ⟨state, success "", []⟩
  else if commandRequiresClose trimmed then ⟨state, { success "" with closeConnection := true }, []⟩
  else
    match tokenizeCommandLine trimmed with
    | [] => ⟨state, failure "invalid command syntax", []⟩
    | first :: rest =>
        if first = bytes "shutdown" then
          if identity.isAdmin then
            ⟨{ state with shutdownRequested := true },
              { success "server shutting down" with closeConnection := true }, [.shutdown]⟩
          else adminRequired state
        else if first = bytes "connections" ∧ rest = [bytes "count"] then
          if identity.isAdmin then
            ⟨state, ⟨true, .connectionCount state.sessions.length, false⟩, [.countConnections]⟩
          else adminRequired state
        else if first = bytes "connections" ∧ rest = [bytes "list"] then
          if identity.isAdmin then ⟨state, ⟨true, .connectionList state.sessions, false⟩, [.listConnections]⟩
          else adminRequired state
        else if first = bytes "reload-config" then
          if identity.isAdmin then
            match reloadRemoteState env source state with
            | .error message =>
                ⟨state, ⟨false, .message (bytes "reload failed: " ++ message), false⟩, [.reloadConfig source]⟩
            | .ok next => ⟨next, success "config reloaded", [.reloadConfig source]⟩
          else adminRequired state
        else
          let (response, effects) := executeWork env state trimmed (first :: rest)
          ⟨state, response, effects⟩

end ReqPack.Remote
