import Mathlib.Logic.Function.Basic
import ReqPack.Remote.Authorization

/-! # The server with all of its sessions

`run_remote_serve` accepts one connection after another and gives each a thread.  The
threads share the state of the server; between any two steps of one of them the accept
loop and the other threads may take theirs.
-/

namespace ReqPack.Remote

open ReqPack.Data
open ReqPack.Data.Ascii

/-- A session without the state of the server. -/
structure Connection where
  protocol : ConnectionProtocol
  identity : SessionIdentity
  phase : Phase
  input : Bytes
  log : List Event

def Connection.session (server : RemoteServerState) (connection : Connection) : Session :=
  ⟨server, connection.protocol, connection.identity, connection.phase, connection.input, connection.log⟩

def Session.connection (session : Session) : Connection :=
  ⟨session.protocol, session.identity, session.phase, session.input, session.log⟩

/-- What the table of the server should show for a connection. -/
def Connection.row (sessionId : Nat) (connection : Connection) : RemoteSessionInfo :=
  ⟨sessionId, connection.protocol, connection.identity.userId, connection.identity.isAdmin, connection.identity.authType⟩

/-- Where the accept loop stands. -/
inductive AcceptPhase
  /-- at the condition of the loop -/
  | testing
  /-- in `accept` -/
  | accepting
  | accepted (input : Bytes)
  /-- the limit was read, the sessions are not counted yet -/
  | limited (input : Bytes) (maxConnections : Int)
  /-- there is room for the connection -/
  | admitted (input : Bytes)
  | finished
deriving DecidableEq, Repr

structure Serving where
  server : RemoteServerState
  nextSessionId : Nat
  /-- `g_remote_signal_shutdown_requested` -/
  signalled : Bool
  accepting : AcceptPhase
  /-- the threads under the numbers of their sessions -/
  connections : Nat → Option Connection
  /-- not part of the source: the connections whose threads have ended -/
  departed : List Connection

inductive ServeStep
  | signal
  /-- the condition of the loop is looked at -/
  | test
  /-- `accept` returns a connection and what its client will send, or fails -/
  | accept (input : Option Bytes)
  | snapshot
  | count
  | register
  /-- a thread takes a step -/
  | thread (sessionId : Nat) (input : Input)
  /-- a response cannot be sent, or a line cannot be received -/
  | hangUp (sessionId : Nat)
  /-- a thread that is done removes its session -/
  | leave (sessionId : Nat)

namespace Serving

/-- The server when the accept loop begins. -/
def start (config : Config.ReqPackConfig) (options : ServeRuntimeOptions) (users : List RemoteUser)
    (configOverrides : Config.ReqPackConfigOverrides) : Serving where
  server := ⟨config, options, users, [], configOverrides, false⟩
  nextSessionId := 1
  signalled := false
  accepting := .testing
  connections := fun _ => none
  departed := []

def stopping (serving : Serving) : Bool := serving.server.shutdownRequested || serving.signalled

def setSessions (serving : Serving) (sessions : List RemoteSessionInfo) : Serving :=
  { serving with server := { serving.server with sessions := sessions } }

/-- The session of a new connection gets a number of its own. -/
def register (serving : Serving) (input : Bytes) : Serving :=
  let connection := (connectedSession serving.server input).connection
  { serving.setSessions (serving.server.sessions ++ [connection.row serving.nextSessionId]) with
    nextSessionId := serving.nextSessionId + 1
    accepting := .testing
    connections := Function.update serving.connections serving.nextSessionId (some connection) }

def leave (serving : Serving) (sessionId : Nat) (connection : Connection) : Serving :=
  { serving.setSessions (serving.server.sessions.filter fun info => info.id != sessionId) with
    connections := Function.update serving.connections sessionId none
    departed := serving.departed ++ [connection] }

/-- A session put back after a step. -/
def resume (serving : Serving) (sessionId : Nat) (session : Session) : Serving :=
  { serving with
    server := session.server
    connections := Function.update serving.connections sessionId (some session.connection) }

end Serving

/-- A reload by another session is a step of that session here. -/
def Input.isReload : Input → Bool
  | .reload _ => true
  | .read | .authenticate | .execute _ | .store _ _ | .storeFails => false

def serveStep (env : ServerEnv) (serving : Serving) : ServeStep → Option Serving
  | .signal => some { serving with signalled := true }
  | .test =>
      match serving.accepting with
      | .testing =>
          if serving.stopping then
            some
              { serving with
                accepting := .finished
                server := { serving.server with shutdownRequested := true } }
          else some { serving with accepting := .accepting }
      | _ => none
  | .accept input =>
      match serving.accepting with
      | .accepting =>
          match input with
          | some input => some { serving with accepting := .accepted input }
          -- the loop breaks or goes on by the test it begins with
          | none => some { serving with accepting := .testing }
      | _ => none
  | .snapshot =>
      match serving.accepting with
      | .accepted input => some { serving with accepting := .limited input serving.server.options.maxConnections }
      | _ => none
  | .count =>
      match serving.accepting with
      | .limited input maxConnections =>
          if (serving.server.sessions.length : Int) ≥ maxConnections then some { serving with accepting := .testing }
          else some { serving with accepting := .admitted input }
      | _ => none
  | .register =>
      match serving.accepting with
      | .admitted input => some (serving.register input)
      | _ => none
  | .thread sessionId input =>
      if input.isReload then none
      else
        (serving.connections sessionId).bind fun connection =>
          (sessionStep env sessionId (connection.session serving.server) input).map (serving.resume sessionId)
  | .hangUp sessionId =>
      (serving.connections sessionId).bind fun connection =>
        match connection.phase with
        | .connected | .waiting =>
            some (serving.resume sessionId ({ connection with phase := .closed }.session serving.server))
        | _ => none
  | .leave sessionId =>
      (serving.connections sessionId).bind fun connection =>
        match connection.phase with
        | .closed => some (serving.leave sessionId connection)
        | _ => none

/-! ## What a step of a session does to the server -/

/-- The row of the session in the table, when there is one, is up to date. -/
def Session.Shown (sessionId : Nat) (session : Session) : Prop :=
  ∀ info ∈ session.server.sessions, info.id = sessionId → info = session.connection.row sessionId

/-- The table after a step is the one before with the row of the session brought up to date. -/
def Redraws (sessionId : Nat) (before after : Session) : Prop :=
  after.server.sessions = before.server.sessions.map fun info =>
    if info.id = sessionId then after.connection.row sessionId else info

/-- A step that runs no command. -/
structure Settles (sessionId : Nat) (before after : Session) : Prop where
  server : ∃ sessions, after.server = { before.server with sessions := sessions }
  log : before.log <+: after.log
  identity : after.identity = before.identity ∨ after.identity.authenticated = true
  table : before.Shown sessionId → Redraws sessionId before after

section Steps

variable {env : ServerEnv} {sessionId : Nat} {before middle after session next : Session}

theorem Redraws.shown (redraws : Redraws sessionId before after) : after.Shown sessionId := by
  intro info member same
  rw [redraws] at member
  obtain ⟨old, listed, rfl⟩ := List.mem_map.mp member
  split at same
  · next here => rw [if_pos here]
  · next apart => exact absurd same apart

theorem redraws_of_same (sessions : after.server.sessions = before.server.sessions)
    (row : after.connection.row sessionId = before.connection.row sessionId) (shown : before.Shown sessionId) :
    Redraws sessionId before after := by
  rw [Redraws, sessions, row]
  symm
  calc
    _ = before.server.sessions.map id := List.map_congr_left fun info member => by
      split
      · next same => exact (shown info member same).symm
      · rfl
    _ = before.server.sessions := List.map_id _

theorem Redraws.trans (first : Redraws sessionId before middle) (second : Redraws sessionId middle after) :
    Redraws sessionId before after := by
  rw [Redraws, second, first, List.map_map]
  apply List.map_congr_left
  intro info _
  by_cases same : info.id = sessionId
  · simp only [Function.comp_apply, if_pos same, Connection.row, if_true]
  · simp only [Function.comp_apply, if_neg same]

theorem Settles.trans (first : Settles sessionId before middle) (second : Settles sessionId middle after) :
    Settles sessionId before after where
  server := by
    obtain ⟨_, one⟩ := first.server
    obtain ⟨sessions, two⟩ := second.server
    exact ⟨sessions, by rw [two, one]⟩
  log := first.log.trans second.log
  identity := by
    rcases second.identity with same | known
    · rw [same]
      exact first.identity
    · exact Or.inr known
  table shown := (first.table shown).trans (second.table (first.table shown).shown)

theorem settles_moved (phase : Phase) (input : Bytes) :
    Settles sessionId session { session with phase := phase, input := input } :=
  ⟨⟨_, rfl⟩, List.prefix_rfl, Or.inl rfl, redraws_of_same rfl rfl⟩

theorem settles_record (events : List Event) : Settles sessionId session (session.record events) :=
  ⟨⟨_, rfl⟩, List.prefix_append _ _, Or.inl rfl, redraws_of_same rfl rfl⟩

theorem settles_protocol (protocol : ConnectionProtocol) :
    Settles sessionId session
      { session with server := setSessionProtocol sessionId protocol session.server, protocol := protocol } := by
  refine ⟨⟨_, rfl⟩, List.prefix_rfl, Or.inl rfl, fun shown => ?_⟩
  refine List.map_congr_left fun info member => ?_
  split
  · next same =>
      rw [shown info member same]
      rfl
  · rfl

theorem settles_identity {identity : SessionIdentity}
    (known : identity = session.identity ∨ identity.authenticated = true) :
    Settles sessionId session (session.takeIdentity sessionId identity) := by
  refine ⟨?_, List.prefix_rfl, known, fun shown => ?_⟩
  · rw [Session.takeIdentity]
    split
    · exact ⟨_, rfl⟩
    · exact ⟨_, rfl⟩
  · by_cases same : identity = session.identity
    · apply redraws_of_same _ _ shown
      · rw [Session.takeIdentity, if_pos same]
      · rw [same]
        rfl
    · rw [Redraws, Session.takeIdentity, if_neg same]
      refine List.map_congr_left fun info member => ?_
      split
      · next here =>
          rw [shown info member here]
          rfl
      · rfl

theorem authenticateWith_known {accepted : SessionIdentity → Authentication} {snapshot : RemoteStateSnapshot}
    {credentials : Option Credentials} {identity : SessionIdentity}
    (kept : ∀ resolved, (accepted resolved).identity = resolved) :
    (authenticateWith accepted snapshot credentials identity).identity = identity ∨
      (authenticateWith accepted snapshot credentials identity).identity.authenticated = true := by
  simp only [authenticateWith]
  split
  · exact Or.inl rfl
  · split
    · exact Or.inr rfl
    · split
      · exact Or.inl rfl
      · split
        · next resolved found =>
            rw [kept]
            exact Or.inr (resolveIdentity_grants found).2
        · exact Or.inl rfl

theorem openSession_settles : Settles sessionId session (session.openSession sessionId) := by
  simp only [Session.openSession]
  split
  · exact settles_moved .closed session.input
  · next line rest _ =>
      split
      · exact settles_moved .closed rest
      · next protocol _ =>
          have begun : Settles sessionId session { session with
              server := setSessionProtocol sessionId protocol session.server
              protocol := protocol
              phase := .received line
              input := rest } := (settles_protocol protocol).trans (settles_moved (.received line) rest)
          split
          · exact begun.trans (settles_record _)
          · exact (begun.trans (settles_identity (Or.inr rfl))).trans (settles_record _)

theorem readNext_settles : Settles sessionId session session.readNext := by
  rw [Session.readNext]
  split
  · exact settles_moved .closed session.input
  · next line rest _ => exact (settles_moved (.received line) rest).trans (settles_record _)

theorem settles_authenticated {identity : SessionIdentity} {events : List Event} {phase : Phase}
    (known : identity = session.identity ∨ identity.authenticated = true) :
    Settles sessionId session { (session.record events).takeIdentity sessionId identity with phase := phase } :=
  ((settles_record events).trans (settles_identity known)).trans (settles_moved phase session.input)

theorem authenticateText_settles {line : Bytes} : Settles sessionId session (session.authenticateText sessionId line) := by
  have known := @authenticateWith_known (fun resolved => .answered resolved (success ""))
    (snapshotRemoteState session.server) (textCredentials line) session.identity fun _ => rfl
  simp only [Session.authenticateText]
  split
  · next identity outcome =>
      simp only [authenticateTextCommand] at outcome
      rw [outcome] at known
      exact settles_authenticated known
  · next identity response outcome =>
      simp only [authenticateTextCommand] at outcome
      rw [outcome] at known
      exact settles_authenticated known

theorem authenticateJson_settles {line : Bytes} : Settles sessionId session (session.authenticateJson sessionId line) := by
  simp only [Session.authenticateJson]
  split
  · exact settles_moved .waiting session.input
  · next command _ =>
      have known := @authenticateWith_known .admitted (snapshotRemoteState session.server)
        (jsonCredentials command) session.identity fun _ => rfl
      split
      · next identity outcome =>
          simp only [authenticateJsonCommand] at outcome
          rw [outcome] at known
          exact settles_authenticated known
      · next identity response outcome =>
          simp only [authenticateJsonCommand] at outcome
          rw [outcome] at known
          exact settles_authenticated known

theorem readPayload_settles {envelope : UploadInstallEnvelope} : Settles sessionId session (session.readPayload envelope) :=
  (settles_moved .waiting (session.input.drop envelope.size)).trans (settles_record _)

theorem beginUpload_settles {commandTokens : List Bytes} : Settles sessionId session (session.beginUpload commandTokens) := by
  have reached : Settles sessionId session (session.record [.uploaded session.identity]) := settles_record _
  rw [Session.beginUpload]
  split
  · exact reached.trans (settles_moved .closed session.input)
  · next envelope _ =>
      split
      · split
        · exact reached.trans (settles_moved .closed [])
        · exact (reached.trans (settles_moved .waiting (session.input.drop envelope.size))).trans (settles_record _)
      · exact reached.trans (settles_moved (.storing envelope) session.input)

/-- What a reload of a session reads, when its step is to carry a command out. -/
def Input.source : Input → Option ReloadSource
  | .execute source | .store _ source => some source
  | .reload _ | .read | .authenticate | .storeFails => none

theorem sessionStep_cases {input : Input} (own : input.isReload = false)
    (stepped : sessionStep env sessionId session input = some next) :
    Settles sessionId session next ∨
      ∃ reached source commandLine, Settles sessionId session reached ∧ input.source = some source ∧
        next = reached.runCommand env source commandLine := by
  cases input with
  | reload source => cases own
  | read =>
      simp only [sessionStep] at stepped
      split at stepped
      · cases stepped
        exact Or.inl openSession_settles
      · cases stepped
        exact Or.inl readNext_settles
      · cases stepped
  | authenticate =>
      simp only [sessionStep] at stepped
      split at stepped
      · cases stepped
        exact Or.inl authenticateText_settles
      · cases stepped
        exact Or.inl authenticateJson_settles
      · cases stepped
  | execute source =>
      simp only [sessionStep] at stepped
      split at stepped
      · next line _ =>
          split at stepped
          · cases stepped
            exact Or.inl beginUpload_settles
          · cases stepped
            exact Or.inr ⟨session, source, line, settles_moved session.phase session.input, rfl, rfl⟩
      · cases stepped
  | store uniquePrefix source =>
      simp only [sessionStep, Session.storeUpload] at stepped
      split at stepped
      · next envelope _ =>
          cases stepped
          split
          · exact Or.inl readPayload_settles
          · split
            · exact Or.inl readPayload_settles
            · next commandLine _ => exact Or.inr ⟨_, source, commandLine, readPayload_settles, rfl, rfl⟩
      · cases stepped
  | storeFails =>
      simp only [sessionStep] at stepped
      split at stepped
      · cases stepped
        exact Or.inl readPayload_settles
      · cases stepped

theorem executeCommand_cases (env : ServerEnv) (source : ReloadSource) (identity : SessionIdentity) (commandLine : Bytes)
    (state : RemoteServerState) :
    (executeCommand env source identity commandLine state).state = state ∨
      ((executeCommand env source identity commandLine state).state = { state with shutdownRequested := true } ∧
        Effect.shutdown ∈ (executeCommand env source identity commandLine state).effects) ∨
      (reloadRemoteState env source state = .ok (executeCommand env source identity commandLine state).state ∧
        Effect.reloadConfig source ∈ (executeCommand env source identity commandLine state).effects) := by
  simp only [executeCommand, adminRequired]
  split
  · exact Or.inl rfl
  · split
    · exact Or.inl rfl
    · split
      · exact Or.inl rfl
      · split
        · split
          · exact Or.inr (Or.inl ⟨rfl, List.mem_singleton_self _⟩)
          · exact Or.inl rfl
        · split
          · split <;> exact Or.inl rfl
          · split
            · split <;> exact Or.inl rfl
            · split
              · split
                · split
                  · exact Or.inl rfl
                  · next loaded => exact Or.inr (Or.inr ⟨loaded, List.mem_singleton_self _⟩)
                · exact Or.inl rfl
              · exact Or.inl rfl

theorem reloadRemoteState_sessions {source : ReloadSource} {state loaded : RemoteServerState}
    (read : reloadRemoteState env source state = .ok loaded) :
    loaded.sessions = state.sessions ∧ loaded.shutdownRequested = state.shutdownRequested := by
  cases source with
  | error message => cases read
  | ok files =>
      cases read
      exact ⟨rfl, rfl⟩

end Steps

end ReqPack.Remote
