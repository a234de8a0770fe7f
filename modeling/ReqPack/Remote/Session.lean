import ReqPack.Data.Machine
import ReqPack.Remote.Server

/-! # Sessions

A connection as a machine that takes one step at a time: reading a line, authenticating
it, carrying it out, storing an upload.  Other sessions may reload the state of the server
between any two steps.
-/

namespace ReqPack.Remote

open ReqPack.Data
open ReqPack.Data.Ascii
open ReqPack.Config

/-! ## JSON requests -/

/-- A character behind a backslash. -/
def unescapeJson (c : UInt8) : UInt8 :=
  if c = 110 then newline else if c = 114 then carriageReturn else if c = 116 then 9 else c

/-- The rest of a JSON string up to its closing quotation mark. -/
def readJsonString (escaped : Bool) (value : Bytes) : Bytes → Option Bytes
  | [] => none
  | c :: rest =>
      if escaped then readJsonString false (value ++ [unescapeJson c]) rest
      else if c = backslash then readJsonString true value rest
      else if c = doubleQuote then some value
      else readJsonString false (value ++ [c]) rest

def extractJsonStringField (json : Bytes) (key : String) : Option Bytes :=
  (splitFirst (doubleQuote :: (bytes key ++ [doubleQuote, 58, doubleQuote])) json).bind fun parts =>
    readJsonString false [] parts.2

def braced (line : Bytes) : Bool :=
  let trimmed := trimCopy line
  trimmed.head? == some 123 && trimmed.getLast? == some 125

def parseJsonCommand (line : Bytes) : Option JsonCommand :=
  if braced line then
    let trimmed := trimCopy line
    some
      { command := (extractJsonStringField trimmed "command").getD []
        token := extractJsonStringField trimmed "token"
        username := extractJsonStringField trimmed "username"
        password := extractJsonStringField trimmed "password" }
  else none

/-! ## The connection -/

/-- `read_line_from_socket` with the rest of the stream; carriage returns are dropped
wherever they stand. -/
def readLine : Bytes → Option (Bytes × Bytes)
  | [] => none
  | c :: rest =>
      if c = newline then some ([], rest)
      else
        let kept : Bytes := if c = carriageReturn then [] else [c]
        match readLine rest with
        | some (line, remaining) => some (kept ++ line, remaining)
        -- the stream ends in the middle of a line
        | none => some (kept, [])

/-- The line at the end of the stream is no line when it is empty. -/
def nextLine (input : Bytes) : Option (Bytes × Bytes) :=
  (readLine input).bind fun parts =>
    if newline ∉ input ∧ parts.1 = [] then none else some parts

def detectConnectionProtocol (options : ServeRuntimeOptions) (firstLine : Bytes) : Option ConnectionProtocol :=
  match options.remoteProtocol with
  | .json => some .json
  | .text => some (if braced firstLine then .json else .text)
  | .http => none
  | .https => none

/-- Where a session stands between two steps. -/
inductive Phase
  /-- connected, nothing is read yet -/
  | connected
  /-- at the top of the loop -/
  | waiting
  /-- a line was read -/
  | received (line : Bytes)
  /-- the line passed authentication -/
  | admitted (line : Bytes)
  /-- the header of an upload was accepted -/
  | storing (envelope : UploadInstallEnvelope)
  | closed
deriving DecidableEq, Repr

/-- What a session did so far. -/
inductive Event
  /-- a line was read, and these are its tokens -/
  | line (tokens : List Bytes)
  /-- the bytes of an upload were read -/
  | payload (content : Bytes)
  /-- no authentication was required when the session looked -/
  | opened (snapshot : RemoteStateSnapshot)
  /-- credentials were compared with a snapshot -/
  | presented (snapshot : RemoteStateSnapshot) (credentials : Credentials)
  /-- `execute_upload_install_command` was reached -/
  | uploaded (identity : SessionIdentity)
  /-- `execute_command` was reached -/
  | executed (state : RemoteServerState) (identity : SessionIdentity) (commandLine : Bytes)
      (effects : List Effect)

structure Session where
  server : RemoteServerState
  protocol : ConnectionProtocol
  identity : SessionIdentity
  phase : Phase
  input : Bytes
  log : List Event

/-- What makes a session take its next step. -/
inductive Input
  /-- another session reloads the state of the server -/
  | reload (source : ReloadSource)
  /-- the session reads a line, the first one or the next one -/
  | read
  | authenticate
  /-- the line is carried out; `source` is what a reload would read now -/
  | execute (source : ReloadSource)
  /-- the upload is stored under a number of the clock, and its command carried out -/
  | store (uniquePrefix : Nat) (source : ReloadSource)
  /-- storing the upload fails once all of it was read -/
  | storeFails

namespace Session

def record (session : Session) (events : List Event) : Session :=
  { session with log := session.log ++ events }

/-- A response is sent, which may be the last one. -/
def answer (session : Session) (response : RemoteResponse) : Session :=
  { session with phase := if response.closeConnection then .closed else .waiting }

/-- The events of an authentication that had to look at a snapshot. -/
def lookedAt (snapshot : RemoteStateSnapshot) (credentials : Option Credentials) (identity : SessionIdentity) :
    List Event :=
  if identity.authenticated then []
  else if !authRequired snapshot then [.opened snapshot]
  else
    match credentials with
    | none => []
    | some credentials => [.presented snapshot credentials]

def isUploadLine (line : Bytes) : Bool :=
  (tokenizeCommandLine (trimCopy line)).head? == some remoteUploadInstallCommand

def takeIdentity (sessionId : Nat) (identity : SessionIdentity) (session : Session) : Session :=
  { session with
    identity := identity
    server := if identity = session.identity then session.server
      else updateSessionIdentity sessionId identity session.server }

/-- The first line decides the protocol, and no authentication may be required. -/
def openSession (sessionId : Nat) (session : Session) : Session :=
  match nextLine session.input with
  | none => { session with phase := .closed }
  | some (line, rest) =>
      let snapshot := snapshotRemoteState session.server
      match detectConnectionProtocol snapshot.options line with
      | none => { session with phase := .closed, input := rest }
      | some protocol =>
          let next : Session :=
            { session with
              server := setSessionProtocol sessionId protocol session.server
              protocol := protocol
              phase := .received line
              input := rest }
          if authRequired snapshot then next.record [.line (tokenizeCommandLine (trimCopy line))]
          else
            (takeIdentity sessionId .anonymous next).record
              [.opened snapshot, .line (tokenizeCommandLine (trimCopy line))]

def readNext (session : Session) : Session :=
  match nextLine session.input with
  | none => { session with phase := .closed }
  | some (line, rest) =>
      ({ session with phase := .received line, input := rest } : Session).record
        [.line (tokenizeCommandLine (trimCopy line))]

def authenticateText (sessionId : Nat) (line : Bytes) (session : Session) : Session :=
  let snapshot := snapshotRemoteState session.server
  let looked := session.record (lookedAt snapshot (textCredentials line) session.identity)
  match authenticateTextCommand snapshot line session.identity with
  | .admitted identity => { takeIdentity sessionId identity looked with phase := .admitted line }
  | .answered identity response =>
      (takeIdentity sessionId identity looked).answer
        { response with closeConnection := response.closeConnection || isUploadLine line }

def authenticateJson (sessionId : Nat) (line : Bytes) (session : Session) : Session :=
  match parseJsonCommand line with
  | none => { session with phase := .waiting }
  | some command =>
      let snapshot := snapshotRemoteState session.server
      let looked := session.record (lookedAt snapshot (jsonCredentials command) session.identity)
      match authenticateJsonCommand snapshot command session.identity with
      | .admitted identity =>
          { takeIdentity sessionId identity looked with
            phase := if command.command.isEmpty then .waiting else .admitted command.command }
      | .answered identity _ => { takeIdentity sessionId identity looked with phase := .waiting }

/-- `execute_command` for this session. -/
def runCommand (env : ServerEnv) (source : ReloadSource) (commandLine : Bytes) (session : Session) : Session :=
  let result := executeCommand env source session.identity commandLine session.server
  (({ session with server := result.state } : Session).record
    [.executed session.server session.identity commandLine result.effects]).answer result.response

/-- `execute_upload_install_command` up to the point where the payload is stored. -/
def beginUpload (commandTokens : List Bytes) (session : Session) : Session :=
  let reached := session.record [.uploaded session.identity]
  match parseUploadInstallEnvelope commandTokens with
  | none => { reached with phase := .closed }
  | some envelope =>
      if session.server.options.readonly then
        if session.input.length < envelope.size then { reached with phase := .closed, input := [] }
        else
          ({ reached with phase := .waiting, input := session.input.drop envelope.size } : Session).record
            [.payload (session.input.take envelope.size)]
      else { reached with phase := .storing envelope }

/-- The payload of an upload; a stream that ends too early is an exception, which is
answered like a failure to store it. -/
def readPayload (envelope : UploadInstallEnvelope) (session : Session) : Session :=
  ({ session with phase := .waiting, input := session.input.drop envelope.size } : Session).record
    [.payload (session.input.take envelope.size)]

def storeUpload (env : ServerEnv) (uniquePrefix : Nat) (source : ReloadSource)
    (envelope : UploadInstallEnvelope) (session : Session) : Session :=
  let stored := session.readPayload envelope
  if session.input.length < envelope.size then stored
  else
    match substituteUploadPath envelope.commandTemplate
        (uploadPath env.tempDirectory uniquePrefix envelope.filename) with
    | none => stored
    | some commandLine => stored.runCommand env source commandLine

end Session

def sessionStep (env : ServerEnv) (sessionId : Nat) (session : Session) : Input → Option Session
  | .reload source => some { session with server := afterReload env source session.server }
  | .read =>
      match session.phase with
      | .connected => some (session.openSession sessionId)
      | .waiting => some session.readNext
      | _ => none
  | .authenticate =>
      match session.phase, session.protocol with
      | .received line, .text => some (session.authenticateText sessionId line)
      | .received line, .json => some (session.authenticateJson sessionId line)
      | _, _ => none
  | .execute source =>
      match session.phase with
      | .admitted line =>
          let commandTokens := tokenizeCommandLine (trimCopy line)
          if session.protocol = .text ∧ commandTokens.head? = some remoteUploadInstallCommand then
            some (session.beginUpload commandTokens)
          else some (session.runCommand env source line)
      | _ => none
  | .store uniquePrefix source =>
      match session.phase with
      | .storing envelope => some (session.storeUpload env uniquePrefix source envelope)
      | _ => none
  | .storeFails =>
      match session.phase with
      | .storing envelope => some (session.readPayload envelope)
      | _ => none

/-- A connection that was just accepted. -/
def connectedSession (server : RemoteServerState) (input : Bytes) : Session :=
  ⟨server, .text, .unknown, .connected, input, []⟩

def runSession (env : ServerEnv) (sessionId : Nat) (session : Session) (inputs : List Input) : Option Session :=
  runEvents (sessionStep env sessionId) session inputs

/-! ## A server without users in an environment where every command lists -/

def listingEnv : ServerEnv where
  home := bytes "/root"
  defaultPluginDirectory := bytes "/root/.reqpack/plugins"
  workspacePlugins := none
  tempDirectory := bytes "/tmp"
  parse _ _ := ([⟨.list, []⟩], [])
  orchestrate _ _ := (true, [])
  securityStatus _ := (true, [])
  versionLine _ := bytes "reqpack 1"

def plainConfig : Config.ReqPackConfig :=
  ⟨⟨bytes "/root/.reqpack/registry", bytes "/root/.reqpack/plugins"⟩, ⟨[]⟩, ⟨false, 16⟩⟩

def openServer : RemoteServerState where
  config := plainConfig
  options := ⟨.text, none, none, none, false, false, 16, false, []⟩
  users := []
  sessions := []
  configOverrides := .none
  shutdownRequested := false

end ReqPack.Remote
