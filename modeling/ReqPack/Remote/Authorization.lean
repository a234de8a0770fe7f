import ReqPack.Remote.Session

/-! # Sessions act under an identity they were given

Whatever lines arrive and whatever other sessions reload in between, a session gets to
the commands of the server only with an identity that a snapshot of the server granted to
the credentials it presented, or as the anonymous user of a server that asked for none.
-/

namespace ReqPack.Remote

open ReqPack.Data
open ReqPack.Data.Ascii

/-- The credentials are those of the user. -/
def RemoteUser.Owns (user : RemoteUser) : Credentials → Prop
  | .token value => user.token = some value
  | .basic username password => user.username.getD user.id = username ∧ user.password = some password

/-- The credentials are those of the fallback options. -/
def ServeRuntimeOptions.Owns (options : ServeRuntimeOptions) : Credentials → Prop
  | .token value => options.token = some value
  | .basic username password => options.username = some username ∧ options.password = some password

/-- The snapshot grants the identity to the credentials. -/
def Grants (snapshot : RemoteStateSnapshot) (credentials : Credentials) (identity : SessionIdentity) : Prop :=
  (snapshot.users ≠ [] ∧ ∃ user ∈ snapshot.users, user.Owns credentials ∧ identity.userId = user.id ∧
    identity.isAdmin = user.isAdmin) ∨
  (snapshot.users = [] ∧ snapshot.options.Owns credentials ∧ identity.isAdmin = false)

/-- The identity was granted by something that happened before. -/
def Granted (before : List Event) (identity : SessionIdentity) : Prop :=
  (∃ snapshot credentials, Event.presented snapshot credentials ∈ before ∧ authRequired snapshot = true ∧
    Grants snapshot credentials identity) ∨
  (∃ snapshot, Event.opened snapshot ∈ before ∧ authRequired snapshot = false ∧
    identity = SessionIdentity.anonymous)

theorem granted_append {before after : List Event} {identity : SessionIdentity}
    (granted : Granted before identity) : Granted (before ++ after) identity := by
  rcases granted with ⟨snapshot, credentials, member, rest⟩ | ⟨snapshot, member, rest⟩
  · exact Or.inl ⟨snapshot, credentials, List.mem_append_left _ member, rest⟩
  · exact Or.inr ⟨snapshot, List.mem_append_left _ member, rest⟩

theorem hasUserRegistry_iff {snapshot : RemoteStateSnapshot} :
    hasUserRegistry snapshot = true ↔ snapshot.users ≠ [] := by
  simp [hasUserRegistry]

/-- A user found in the registry by the credentials. -/
theorem grants_of_found {snapshot : RemoteStateSnapshot} {credentials : Credentials} {user : RemoteUser}
    {search : RemoteUser → Bool} (registered : hasUserRegistry snapshot = true)
    (found : snapshot.users.find? search = some user)
    (owns : ∀ candidate, search candidate = true → candidate.Owns credentials) (authType : Bytes) :
    Grants snapshot credentials ⟨true, user.id, user.isAdmin, authType⟩ :=
  Or.inl ⟨hasUserRegistry_iff.1 registered, user, List.mem_of_find?_eq_some found,
    owns user (List.find?_some found), rfl, rfl⟩

/-- A resolved identity is granted by the snapshot it was resolved in. -/
theorem resolveIdentity_grants {snapshot : RemoteStateSnapshot} {credentials : Credentials}
    {identity : SessionIdentity} (resolved : resolveIdentity snapshot credentials = some identity) :
    Grants snapshot credentials identity ∧ identity.authenticated = true := by
  by_cases registered : hasUserRegistry snapshot = true
  · cases credentials with
    | token value =>
        rw [resolveIdentity, if_pos registered] at resolved
        obtain ⟨user, found, rfl⟩ := Option.map_eq_some_iff.mp resolved
        exact ⟨grants_of_found registered found (fun candidate owned => by simpa [RemoteUser.Owns] using owned) _,
          rfl⟩
    | basic username password =>
        rw [resolveIdentity, if_pos registered] at resolved
        obtain ⟨user, found, rfl⟩ := Option.map_eq_some_iff.mp resolved
        exact ⟨grants_of_found registered found (fun candidate owned => by simpa [RemoteUser.Owns] using owned) _,
          rfl⟩
  · have unregistered : snapshot.users = [] := by
      rw [hasUserRegistry_iff] at registered
      simpa using registered
    cases credentials with
    | token value =>
        rw [resolveIdentity, if_neg registered, resolveFallbackIdentityByToken] at resolved
        split at resolved
        · rename_i owned
          cases resolved
          exact ⟨Or.inr ⟨unregistered, owned, rfl⟩, rfl⟩
        · cases resolved
    | basic username password =>
        rw [resolveIdentity, if_neg registered, resolveFallbackIdentityByBasic] at resolved
        split at resolved
        · rename_i owned
          cases resolved
          exact ⟨Or.inr ⟨unregistered, owned, rfl⟩, rfl⟩
        · cases resolved

/-! ## Commands of the server itself -/

theorem executeWork_unprivileged {env : ServerEnv} {state : RemoteServerState} {trimmed : Bytes}
    {commandTokens : List Bytes} :
    ∀ effect ∈ (executeWork env state trimmed commandTokens).2, effect.privileged = false := by
  intro effect member
  simp only [executeWork] at member
  split at member
  · simp at member
  · split at member
    · simp at member
    · split at member
      · split at member
        · simp at member
        · split at member
          · simp only [List.mem_singleton] at member
            rw [member, Effect.privileged]
          · split at member
            · simp only [List.mem_singleton] at member
              rw [member, Effect.privileged]
            · simp at member
      · split at member
        · simp at member
        · split at member
          · simp at member
          · simp only [List.mem_singleton] at member
            rw [member, Effect.privileged]

/-- A command changes the server or tells about its connections only for an
administrator. -/
theorem executeCommand_unprivileged {env : ServerEnv} {source : ReloadSource} {identity : SessionIdentity}
    {commandLine : Bytes} {state : RemoteServerState} (ordinary : identity.isAdmin = false) :
    (executeCommand env source identity commandLine state).state = state ∧
      ∀ effect ∈ (executeCommand env source identity commandLine state).effects, effect.privileged = false := by
  simp only [executeCommand, ordinary, adminRequired]
  split
  · simp
  · split
    · simp
    · split
      · simp
      · split
        · simp
        · split
          · simp
          · split
            · simp
            · split
              · simp
              · exact ⟨rfl, executeWork_unprivileged⟩

/-! ## The invariant of a session -/

/-- What is promised about an event in the light of the events before it. -/
def Event.Authorized (before : List Event) : Event → Prop
  | .uploaded identity => Granted before identity
  | .executed _ identity _ effects =>
      Granted before identity ∧ ∀ effect ∈ effects, effect.privileged = true → identity.isAdmin = true
  | _ => True

/-- Every event was authorized by the events before it. -/
def AuthorizedFrom : List Event → List Event → Prop
  | _, [] => True
  | before, event :: rest => event.Authorized before ∧ AuthorizedFrom (before ++ [event]) rest

theorem authorizedFrom_append {before first second : List Event} :
    AuthorizedFrom before (first ++ second) ↔
      AuthorizedFrom before first ∧ AuthorizedFrom (before ++ first) second := by
  induction first generalizing before with
  | nil => simp [AuthorizedFrom]
  | cons event first ih => simp [AuthorizedFrom, ih, and_assoc]

structure Session.Authorized (session : Session) : Prop where
  log : AuthorizedFrom [] session.log
  identity : session.identity.authenticated = true → Granted session.log session.identity
  admitted : ∀ line, session.phase = .admitted line → session.identity.authenticated = true
  storing : ∀ envelope, session.phase = .storing envelope → session.identity.authenticated = true

namespace Session

variable {env : ServerEnv} {sessionId : Nat} {session next : Session}

/-- Phases a session may be in before it is authenticated. -/
def idle : Phase → Bool
  | .admitted _ | .storing _ => false
  | .connected | .waiting | .received _ | .closed => true

theorem moved_authorized {server : RemoteServerState} {protocol : ConnectionProtocol} {phase : Phase}
    {input : Bytes} (authorized : session.Authorized) (resting : idle phase = true) :
    (⟨server, protocol, session.identity, phase, input, session.log⟩ : Session).Authorized where
  log := authorized.log
  identity := authorized.identity
  admitted := by
    rintro line rfl
    cases resting
  storing := by
    rintro envelope rfl
    cases resting

/-- Events that need no authorization. -/
theorem record_authorized {events : List Event} (authorized : session.Authorized)
    (free : ∀ event ∈ events, ∀ before, event.Authorized before) : (session.record events).Authorized where
  log := by
    refine authorizedFrom_append.2 ⟨authorized.log, ?_⟩
    generalize [] ++ session.log = before
    induction events generalizing before with
    | nil => exact True.intro
    | cons event events ih =>
        exact ⟨free event List.mem_cons_self before,
          ih (fun later member => free later (List.mem_cons_of_mem _ member)) _⟩
  identity holds := granted_append (authorized.identity holds)
  admitted := authorized.admitted
  storing := authorized.storing

/-- A session that goes back to the top of the loop, or ends. -/
theorem answer_authorized {response : RemoteResponse} (authorized : session.Authorized) :
    (session.answer response).Authorized where
  log := authorized.log
  identity := authorized.identity
  admitted line phase := by
    simp only [answer] at phase
    split at phase <;> cases phase
  storing envelope phase := by
    simp only [answer] at phase
    split at phase <;> cases phase

theorem executed_authorized {source : ReloadSource} {commandLine : Bytes} (authorized : session.Authorized)
    (authenticated : session.identity.authenticated = true) :
    (session.runCommand env source commandLine).Authorized := by
  apply answer_authorized
  have granted := authorized.identity authenticated
  refine ⟨authorizedFrom_append.2 ⟨authorized.log, ⟨granted, ?_⟩, True.intro⟩,
    fun holds => granted_append (authorized.identity holds), authorized.admitted, authorized.storing⟩
  intro effect member privileged
  cases admin : session.identity.isAdmin with
  | true => rfl
  | false =>
      have ordinary := (executeCommand_unprivileged admin).2 effect member
      rw [privileged] at ordinary
      cases ordinary

theorem lookedAt_free {snapshot : RemoteStateSnapshot} {credentials : Option Credentials}
    {identity : SessionIdentity} :
    ∀ event ∈ lookedAt snapshot credentials identity, ∀ before, event.Authorized before := by
  intro event member before
  simp only [lookedAt] at member
  split at member
  · cases member
  · split at member
    · cases List.mem_singleton.mp member
      exact True.intro
    · split at member
      · cases member
      · cases List.mem_singleton.mp member
        exact True.intro

/-- An identity that authentication gives out is granted by what the session looked at. -/
theorem authenticateWith_granted {accepted : SessionIdentity → Authentication}
    {snapshot : RemoteStateSnapshot} {credentials : Option Credentials} {identity : SessionIdentity}
    {log : List Event} (kept : ∀ resolved, (accepted resolved).identity = resolved)
    (held : identity.authenticated = true → Granted log identity) :
    (authenticateWith accepted snapshot credentials identity).identity.authenticated = true →
      Granted (log ++ lookedAt snapshot credentials identity)
        (authenticateWith accepted snapshot credentials identity).identity := by
  intro authenticated
  simp only [authenticateWith, lookedAt] at authenticated ⊢
  cases known : identity.authenticated with
  | true =>
      simp only [if_true, List.append_nil]
      exact held known
  | false =>
      simp only [known, Bool.false_eq_true, if_false] at authenticated ⊢
      cases required : authRequired snapshot with
      | false =>
          simp only [Bool.not_false, if_true]
          exact Or.inr ⟨snapshot, by simp, required, rfl⟩
      | true =>
          simp only [required, Bool.not_true, Bool.false_eq_true, if_false] at authenticated ⊢
          cases credentials with
          | none =>
              rw [Authentication.identity, known] at authenticated
              cases authenticated
          | some presented =>
              cases resolved : resolveIdentity snapshot presented with
              | none =>
                  simp only [resolved, Authentication.identity, known] at authenticated
                  cases authenticated
              | some granted =>
                  simp only [resolved, kept]
                  exact Or.inl ⟨snapshot, presented, by simp, required, (resolveIdentity_grants resolved).1⟩

theorem authenticateWith_admitted {accepted : SessionIdentity → Authentication}
    {snapshot : RemoteStateSnapshot} {credentials : Option Credentials} {identity given : SessionIdentity}
    (kept : ∀ resolved, (accepted resolved).identity = resolved)
    (admitted : authenticateWith accepted snapshot credentials identity = .admitted given) :
    given.authenticated = true := by
  simp only [authenticateWith] at admitted
  split at admitted
  · rename_i known
    cases admitted
    exact known
  · split at admitted
    · cases admitted
      rfl
    · split at admitted
      · cases admitted
      · split at admitted
        · rename_i resolved found
          have same := kept resolved
          rw [admitted, Authentication.identity] at same
          rw [same]
          exact (resolveIdentity_grants found).2
        · cases admitted

/-- A session that took the identity authentication gave out. -/
theorem takeIdentity_authorized {given : SessionIdentity} {events : List Event} {phase : Phase}
    (authorized : session.Authorized) (free : ∀ event ∈ events, ∀ before, event.Authorized before)
    (granted : given.authenticated = true → Granted (session.log ++ events) given)
    (admitted : ∀ line, phase = .admitted line → given.authenticated = true)
    (storing : ∀ envelope, phase ≠ .storing envelope) :
    ({ takeIdentity sessionId given (session.record events) with phase := phase } : Session).Authorized :=
  ⟨(record_authorized authorized free).log, granted, admitted,
    fun envelope stored => absurd stored (storing envelope)⟩

theorem authenticateText_authorized {line : Bytes} (authorized : session.Authorized) :
    (session.authenticateText sessionId line).Authorized := by
  have granted := @authenticateWith_granted (fun resolved => .answered resolved (success ""))
    (snapshotRemoteState session.server) (textCredentials line) session.identity session.log
    (fun _ => rfl) authorized.identity
  simp only [authenticateText, authenticateTextCommand]
  cases outcome : authenticateWith (fun resolved => .answered resolved (success ""))
      (snapshotRemoteState session.server) (textCredentials line) session.identity with
  | admitted identity =>
      rw [outcome] at granted
      exact takeIdentity_authorized authorized lookedAt_free granted
        (fun _ _ => authenticateWith_admitted (fun _ => rfl) outcome) (fun _ phase => nomatch phase)
  | answered identity response =>
      rw [outcome] at granted
      apply takeIdentity_authorized authorized lookedAt_free granted
      · intro line phase
        split at phase <;> cases phase
      · intro envelope phase
        split at phase <;> cases phase

theorem authenticateJson_authorized {line : Bytes} (authorized : session.Authorized) :
    (session.authenticateJson sessionId line).Authorized := by
  cases parsed : parseJsonCommand line with
  | none =>
      simp only [authenticateJson, parsed]
      exact moved_authorized authorized rfl
  | some command =>
      have granted := @authenticateWith_granted .admitted (snapshotRemoteState session.server)
        (jsonCredentials command) session.identity session.log (fun _ => rfl) authorized.identity
      cases outcome : authenticateWith .admitted (snapshotRemoteState session.server)
          (jsonCredentials command) session.identity with
      | admitted identity =>
          rw [outcome] at granted
          simp only [authenticateJson, authenticateJsonCommand, parsed, outcome]
          apply takeIdentity_authorized authorized lookedAt_free granted
          · intro _ _
            exact authenticateWith_admitted (fun _ => rfl) outcome
          · intro envelope phase
            split at phase <;> cases phase
      | answered identity response =>
          rw [outcome] at granted
          simp only [authenticateJson, authenticateJsonCommand, parsed, outcome]
          exact takeIdentity_authorized authorized lookedAt_free granted (fun _ phase => nomatch phase)
            (fun _ phase => nomatch phase)

theorem openSession_authorized (authorized : session.Authorized) : (session.openSession sessionId).Authorized := by
  cases read : nextLine session.input with
  | none =>
      simp only [openSession, read]
      exact moved_authorized authorized rfl
  | some parts =>
      cases detected : detectConnectionProtocol (snapshotRemoteState session.server).options parts.1 with
      | none =>
          simp only [openSession, read, detected]
          exact moved_authorized authorized rfl
      | some protocol =>
          have begun : ({ session with
              server := setSessionProtocol sessionId protocol session.server
              protocol := protocol
              phase := .received parts.1
              input := parts.2 } : Session).Authorized := moved_authorized authorized rfl
          simp only [openSession, read, detected]
          cases required : authRequired (snapshotRemoteState session.server) with
          | true =>
              simp only [if_true]
              apply record_authorized begun
              intro event member before
              cases List.mem_singleton.mp member
              exact True.intro
          | false =>
              simp only [Bool.false_eq_true, if_false]
              refine ⟨(record_authorized begun ?_).log, ?_, (fun _ phase => nomatch phase),
                (fun _ phase => nomatch phase)⟩
              · intro event member before
                simp only [List.mem_cons, List.not_mem_nil, or_false] at member
                rcases member with rfl | rfl <;> exact True.intro
              · intro _
                exact Or.inr ⟨snapshotRemoteState session.server, by simp [record, takeIdentity], required, rfl⟩

theorem readNext_authorized (authorized : session.Authorized) : session.readNext.Authorized := by
  cases read : nextLine session.input with
  | none =>
      simp only [readNext, read]
      exact moved_authorized authorized rfl
  | some parts =>
      have begun : ({ session with phase := .received parts.1, input := parts.2 } : Session).Authorized :=
        moved_authorized authorized rfl
      simp only [readNext, read]
      apply record_authorized begun
      intro event member before
      cases List.mem_singleton.mp member
      exact True.intro

theorem readPayload_authorized {envelope : UploadInstallEnvelope} (authorized : session.Authorized) :
    (session.readPayload envelope).Authorized := by
  have begun : ({ session with phase := .waiting, input := session.input.drop envelope.size } :
      Session).Authorized := moved_authorized authorized rfl
  apply record_authorized begun
  intro event member before
  cases List.mem_singleton.mp member
  exact True.intro

theorem beginUpload_authorized {commandTokens : List Bytes} (authorized : session.Authorized)
    (authenticated : session.identity.authenticated = true) :
    (session.beginUpload commandTokens).Authorized := by
  have granted := authorized.identity authenticated
  have reached : (session.record [.uploaded session.identity]).Authorized :=
    ⟨authorizedFrom_append.2 ⟨authorized.log, granted, True.intro⟩,
      fun holds => granted_append (authorized.identity holds), authorized.admitted, authorized.storing⟩
  simp only [beginUpload]
  split
  · exact moved_authorized reached rfl
  · rename_i envelope parsed
    split
    · split
      · exact moved_authorized reached rfl
      · exact readPayload_authorized reached
    · exact ⟨reached.log, reached.identity, (fun _ phase => nomatch phase), fun _ _ => authenticated⟩

theorem storeUpload_authorized {uniquePrefix : Nat} {source : ReloadSource} {envelope : UploadInstallEnvelope}
    (authorized : session.Authorized) (authenticated : session.identity.authenticated = true) :
    (session.storeUpload env uniquePrefix source envelope).Authorized := by
  have stored := @readPayload_authorized session envelope authorized
  simp only [storeUpload]
  split
  · exact stored
  · split
    · exact stored
    · exact executed_authorized stored authenticated

/-- What one step of a session keeps. -/
theorem step_authorized {input : Input} (authorized : session.Authorized)
    (stepped : sessionStep env sessionId session input = some next) : next.Authorized := by
  cases input with
  | reload source =>
      cases stepped
      exact ⟨authorized.log, authorized.identity, authorized.admitted, authorized.storing⟩
  | read =>
      simp only [sessionStep] at stepped
      split at stepped
      · cases stepped
        exact openSession_authorized authorized
      · cases stepped
        exact readNext_authorized authorized
      · cases stepped
  | authenticate =>
      simp only [sessionStep] at stepped
      split at stepped
      · cases stepped
        exact authenticateText_authorized authorized
      · cases stepped
        exact authenticateJson_authorized authorized
      · cases stepped
  | execute source =>
      simp only [sessionStep] at stepped
      split at stepped
      · rename_i line phase
        have authenticated := authorized.admitted line phase
        split at stepped
        · cases stepped
          exact beginUpload_authorized authorized authenticated
        · cases stepped
          exact executed_authorized authorized authenticated
      · cases stepped
  | store uniquePrefix source =>
      simp only [sessionStep] at stepped
      split at stepped
      · rename_i envelope phase
        cases stepped
        exact storeUpload_authorized authorized (authorized.storing envelope phase)
      · cases stepped
  | storeFails =>
      simp only [sessionStep] at stepped
      split at stepped
      · cases stepped
        exact readPayload_authorized authorized
      · cases stepped

end Session

theorem connectedSession_authorized (server : RemoteServerState) (input : Bytes) :
    (connectedSession server input).Authorized :=
  ⟨True.intro, (fun known => nomatch known), (fun _ phase => nomatch phase), (fun _ phase => nomatch phase)⟩

theorem authorizedFrom_at {log before after : List Event} {event : Event} (authorized : AuthorizedFrom [] log)
    (split : log = before ++ event :: after) : event.Authorized before := by
  subst split
  exact (authorizedFrom_append.1 authorized).2.1

/-- A server with one administrator. -/
def guardedServer : RemoteServerState :=
  { openServer with users := [⟨bytes "root", some (bytes "secret"), none, none, true⟩] }

def Event.isPresented : Event → Bool
  | .presented _ _ => true
  | _ => false

def Event.isExecuted : Event → Bool
  | .executed _ _ _ _ => true
  | _ => false

end ReqPack.Remote
