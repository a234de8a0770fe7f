import ReqPack.Remote.Authorization
import ReqPack.Remote.JsonRequest
import ReqPack.Remote.Quoting

/-! # Credentials from the client to the server

A client of the text protocol writes its credentials into a line as they are, a client of
the JSON protocol escapes them.  The server compares what it read with its users.
-/

namespace ReqPack.Remote

open ReqPack.Data
open ReqPack.Data.Ascii

def authTokenLine (token : Bytes) : Bytes := bytes "auth token " ++ token

def authBasicLine (username password : Bytes) : Bytes :=
  bytes "auth basic " ++ username ++ space :: password

/-- What `run_text_client_session` sends before anything else. -/
def authLine (profile : RemoteProfile) : Option Bytes :=
  match profile.token, profile.username, profile.password with
  | some token, _, _ => some (authTokenLine token)
  | none, some username, some password => some (authBasicLine username password)
  | none, _, _ => none

/-- The first line of a client. -/
def firstLine (commandLine : Bytes) (profile : RemoteProfile) : ConnectionProtocol → Option Bytes
  | .text => authLine profile
  | .json => some (jsonRequest commandLine profile)

/-! ## Unquoted text in a line -/

namespace Tokenizer

variable {state : Tokenizer} {c : UInt8} {command : Bytes}

/-- The mark that opens a quotation is lost. -/
theorem step_leaves (outside : state.Outside) (inside : ¬ (state.step c).Outside) :
    (state.step c).weight = state.weight := by
  simp only [Outside] at outside inside
  simp only [step] at inside ⊢
  split at inside
  · exact absurd outside inside
  · split at inside
    · exact absurd outside inside
    · rename_i settled slash
      rw [if_neg settled, if_neg slash]
      split at inside
      · rename_i single
        rw [if_pos single]
        rfl
      · rename_i single
        rw [if_neg single]
        split at inside
        · rename_i double
          rw [if_pos double]
          rfl
        · split at inside
          · exact absurd (by simpa using outside) inside
          · exact absurd outside inside

theorem run_leaves (outside : state.Outside) (inside : ¬ (state.run command).Outside) :
    (state.run command).weight + 2 ≤ state.weight + 2 * command.length := by
  induction command generalizing state with
  | nil => exact absurd outside inside
  | cons c command ih =>
      simp only [run_cons, List.length_cons] at inside ⊢
      by_cases still : (state.step c).Outside
      · have first := @step_weight_le state c
        have rest := ih still inside
        omega
      · have first := step_leaves outside still
        have rest := @run_weight_le (state.step c) command
        omega

theorem step_tokens (c : UInt8) : state.tokens <+: (state.step c).tokens := by
  simp only [step]
  split
  · exact List.prefix_refl _
  · split
    · exact List.prefix_refl _
    · split
      · exact List.prefix_refl _
      · split
        · exact List.prefix_refl _
        · split
          · rw [push]
            split
            · exact List.prefix_refl _
            · exact List.prefix_append _ _
          · exact List.prefix_refl _

theorem run_tokens : state.tokens <+: (state.run command).tokens := by
  induction command generalizing state with
  | nil => exact List.prefix_refl _
  | cons c command ih => exact (step_tokens c).trans ih

/-- What was cut off before stands in front of the tokens of a line. -/
theorem finish_tokens : (state.run command).finish = [] ∨ state.tokens <+: (state.run command).finish := by
  rw [finish]
  split
  · exact Or.inl rfl
  · right
    apply (@run_tokens state command).trans
    rw [push]
    split
    · exact List.prefix_refl _
    · exact List.prefix_append _ _

/-- One value behind what was read before. -/
theorem finish_value {value : Bytes} {rest : List Bytes} (ready : state.Ready) (fresh : state.current = [])
    (present : value ≠ []) :
    (state.run value).finish = state.tokens ++ value :: rest ↔ value.any isSpecial = false ∧ rest = [] := by
  constructor
  · intro read
    have heavy : listWeight (state.run value).finish =
        listWeight state.tokens + (2 * value.length + 1 + listWeight rest) := by
      rw [read]
      simp [tokenWeight]
    have start : state.weight = listWeight state.tokens := by
      simp [weight, fresh, ready.2]
    have outside : (state.run value).Outside := by
      by_contra inside
      rw [finish_of_not_outside inside] at read
      simp at read
    have bounded : listWeight (state.run value).finish ≤ (state.run value).weight + 1 := by
      rcases finish_weight_le outside with empty | bounded
      · rw [empty] at read
        simp at read
      · exact bounded
    have plain : value.any isSpecial = false := by
      by_contra special
      have lost := run_weight_lt ready.1 (by simpa using special)
      omega
    refine ⟨plain, ?_⟩
    cases rest with
    | nil => rfl
    | cons token rest =>
        have whole := @run_weight_le state value
        simp only [listWeight_cons, tokenWeight] at heavy
        omega
  · rintro ⟨plain, rfl⟩
    rw [run_plain plain ready.2]
    simp [finish, push, fresh, present, ready.1.1, ready.1.2, ready.2]

/-- Two values with a blank between them. -/
theorem finish_values {first second : Bytes} {rest : List Bytes} (ready : state.Ready)
    (fresh : state.current = []) (present : first ≠ [] ∧ second ≠ []) :
    (state.run (first ++ space :: second)).finish = state.tokens ++ first :: second :: rest ↔
      (first.any isSpecial = false ∧ second.any isSpecial = false) ∧ rest = [] := by
  cases special : first.any isSpecial with
  | false =>
      have read : state.run (first ++ space :: second) =
          ({ state with tokens := state.tokens ++ [first] } : Tokenizer).run second := by
        have between : ({ state with current := state.current ++ first } : Tokenizer).Ready := ready
        rw [run_append, run_cons, run_plain special ready.2, step_space_ready_eq between]
        simp [push, fresh, present.1]
      have next : ({ state with tokens := state.tokens ++ [first] } : Tokenizer).Ready := ready
      have ends := @finish_value { state with tokens := state.tokens ++ [first] } second rest next fresh present.2
      rw [read]
      simpa using ends
  | true =>
      constructor
      · intro read
        exfalso
        have heavy : listWeight (state.run (first ++ space :: second)).finish =
            listWeight state.tokens + (2 * first.length + 1 + (2 * second.length + 1 + listWeight rest)) := by
          rw [read]
          simp [tokenWeight]
        have start : state.weight = listWeight state.tokens := by
          simp [weight, fresh, ready.2]
        have outside : (state.run (first ++ space :: second)).Outside := by
          by_contra inside
          rw [finish_of_not_outside inside] at read
          simp at read
        have bounded : listWeight (state.run (first ++ space :: second)).finish ≤
            (state.run (first ++ space :: second)).weight + 1 := by
          rcases finish_weight_le outside with empty | bounded
          · rw [empty] at read
            simp at read
          · exact bounded
        rw [run_append, run_cons] at heavy bounded
        -- the damaged value and the blank lose two of their weight
        have front : ((state.run first).step space).weight ≤ state.weight + 2 * first.length := by
          by_cases closed : (state.run first).Outside
          · have lost := run_weight_lt ready.1 special
            have blank := step_space_weight_le closed
            omega
          · have lost := run_leaves ready.1 closed
            have blank := @step_weight_le (state.run first) space
            omega
        have back := @run_weight_le ((state.run first).step space) second
        omega
      · intro plain
        cases plain.1.1

end Tokenizer

/-! ## The credentials the server reads -/

section Lines

variable {token username password : Bytes}

theorem authTokenLine_tokens :
    tokenizeCommandLine (authTokenLine token) =
      (({ Tokenizer.start with tokens := [bytes "auth", bytes "token"] } : Tokenizer).run token).finish := by
  rw [tokenizeCommandLine, authTokenLine, Tokenizer.run_append]
  rfl

theorem authBasicLine_tokens :
    tokenizeCommandLine (authBasicLine username password) =
      (({ Tokenizer.start with tokens := [bytes "auth", bytes "basic"] } : Tokenizer).run
        (username ++ space :: password)).finish := by
  rw [tokenizeCommandLine, authBasicLine, List.append_assoc, Tokenizer.run_append]
  rfl

/-- The server reads the token of the client unless a byte of it means something to the
tokenizer. -/
theorem textCredentials_token (present : token ≠ []) :
    textCredentials (authTokenLine token) = some (.token token) ↔ token.any isSpecial = false := by
  have ready : ({ Tokenizer.start with tokens := [bytes "auth", bytes "token"] } : Tokenizer).Ready :=
    ⟨⟨rfl, rfl⟩, rfl⟩
  have ends (rest : List Bytes) := @Tokenizer.finish_value _ token rest ready rfl present
  rw [textCredentials, authTokenLine_tokens]
  constructor
  · intro read
    rcases @Tokenizer.finish_tokens { Tokenizer.start with tokens := [bytes "auth", bytes "token"] } token with
      empty | ⟨rest, whole⟩
    · rw [empty] at read
      cases read
    · cases rest with
      | nil =>
          rw [← whole] at read
          cases read
      | cons first rest =>
          rw [← whole] at read
          have same : first = token := by simpa using read
          rw [same] at whole
          exact ((ends rest).mp whole.symm).1
  · intro plain
    rw [(ends []).mpr ⟨plain, rfl⟩]
    simp

theorem textCredentials_basic (present : username ≠ [] ∧ password ≠ []) :
    textCredentials (authBasicLine username password) = some (.basic username password) ↔
      username.any isSpecial = false ∧ password.any isSpecial = false := by
  have ready : ({ Tokenizer.start with tokens := [bytes "auth", bytes "basic"] } : Tokenizer).Ready :=
    ⟨⟨rfl, rfl⟩, rfl⟩
  have ends (rest : List Bytes) := @Tokenizer.finish_values _ username password rest ready rfl present
  have apart : bytes "basic" ≠ bytes "token" := by decide
  rw [textCredentials, authBasicLine_tokens]
  constructor
  · intro read
    rcases @Tokenizer.finish_tokens { Tokenizer.start with tokens := [bytes "auth", bytes "basic"] }
      (username ++ space :: password) with empty | ⟨rest, whole⟩
    · rw [empty] at read
      cases read
    · rw [← whole] at read
      cases rest with
      | nil => cases read
      | cons first rest =>
          cases rest with
          | nil => simp [apart] at read
          | cons second rest =>
              have same : first = username ∧ second = password := by simpa [apart] using read
              rw [same.1, same.2] at whole
              exact ((ends rest).mp whole.symm).1
  · intro plain
    rw [(ends []).mpr ⟨plain, rfl⟩]
    simp [apart]

/-- A line with a login is never taken for one with a token. -/
theorem textCredentials_basic_kind {value : Bytes} :
    textCredentials (authBasicLine username password) ≠ some (.token value) := by
  have apart : bytes "basic" ≠ bytes "token" := by decide
  rw [textCredentials, authBasicLine_tokens]
  intro read
  rcases @Tokenizer.finish_tokens { Tokenizer.start with tokens := [bytes "auth", bytes "basic"] }
    (username ++ space :: password) with empty | ⟨rest, whole⟩
  · rw [empty] at read
    cases read
  · rw [← whole] at read
    cases rest with
    | nil => cases read
    | cons first rest =>
        cases rest with
        | nil => simp [apart] at read
        | cons second rest => simp [apart] at read

theorem textCredentials_token_kind {login value : Bytes} :
    textCredentials (authTokenLine token) ≠ some (.basic login value) := by
  have apart : bytes "token" ≠ bytes "basic" := by decide
  rw [textCredentials, authTokenLine_tokens]
  intro read
  rcases @Tokenizer.finish_tokens { Tokenizer.start with tokens := [bytes "auth", bytes "token"] } token with
    empty | ⟨rest, whole⟩
  · rw [empty] at read
    cases read
  · rw [← whole] at read
    cases rest with
    | nil => cases read
    | cons first rest => simp at read

end Lines

/-! ## The users of the server -/

def RemoteUser.loginName (user : RemoteUser) : Bytes := user.username.getD user.id

/-- The user the server finds by the credentials. -/
def foundUser (users : List RemoteUser) : Credentials → Option RemoteUser
  | .token value => users.find? fun user => user.token == some value
  | .basic username password =>
      users.find? fun user => user.username.getD user.id == username && user.password == some password

def Credentials.kind : Credentials → Bytes
  | .token _ => bytes "token"
  | .basic _ _ => bytes "basic"

def Credentials.identity (credentials : Credentials) (user : RemoteUser) : SessionIdentity :=
  ⟨true, user.id, user.isAdmin, credentials.kind⟩

theorem resolveIdentity_found {snapshot : RemoteStateSnapshot} (registered : snapshot.users ≠ [])
    (credentials : Credentials) :
    resolveIdentity snapshot credentials = (foundUser snapshot.users credentials).map credentials.identity := by
  have registry : hasUserRegistry snapshot = true := by simpa [hasUserRegistry] using registered
  cases credentials with
  | token value =>
      rw [resolveIdentity, if_pos registry]
      rfl
  | basic username password =>
      rw [resolveIdentity, if_pos registry]
      rfl

/-- Credentials that can be sent in a line. -/
def LineValue (value : Bytes) : Prop := value ≠ [] ∧ newline ∉ value ∧ carriageReturn ∉ value

/-- Users with pairwise different credentials. -/
structure DistinctUsers (users : List RemoteUser) : Prop where
  tokens : users.Pairwise fun first later => first.token ≠ none → first.token ≠ later.token
  logins : users.Pairwise fun first later => first.loginName ≠ later.loginName
  passwords : users.Pairwise fun first later => first.password ≠ none → first.password ≠ later.password
  token : ∀ user ∈ users, ∀ value ∈ user.token, LineValue value
  login : ∀ user ∈ users, LineValue user.loginName
  password : ∀ user ∈ users, ∀ value ∈ user.password, LineValue value

section Users

variable {users : List RemoteUser} {user : RemoteUser}

/-- A search finds the only element it can find. -/
theorem find_only {α : Type} {items : List α} {item : α} {search : α → Bool}
    (only : items.Pairwise fun first later => ¬ (search first = true ∧ search later = true))
    (member : item ∈ items) : items.find? search = some item ↔ search item = true := by
  constructor
  · exact List.find?_some
  · intro holds
    induction items with
    | nil => cases member
    | cons first items ih =>
        rw [List.pairwise_cons] at only
        rw [List.find?_cons]
        cases found : search first with
        | true =>
            rcases List.mem_cons.mp member with rfl | later
            · rfl
            · exact absurd ⟨found, holds⟩ (only.1 item later)
        | false =>
            rcases List.mem_cons.mp member with rfl | later
            · rw [holds] at found
              cases found
            · exact ih only.2 later

/-- Credentials lead to the user who owns them. -/
theorem foundUser_iff (distinct : DistinctUsers users) (member : user ∈ users) (credentials : Credentials) :
    foundUser users credentials = some user ↔ user.Owns credentials := by
  cases credentials with
  | token value =>
      rw [foundUser, find_only (distinct.tokens.imp ?_) member]
      · simp [RemoteUser.Owns]
      · intro first later apart both
        simp only [beq_iff_eq] at both
        exact apart (by simp [both.1]) (both.1.trans both.2.symm)
  | basic username password =>
      rw [foundUser, find_only (distinct.logins.imp ?_) member]
      · simp [RemoteUser.Owns]
      · intro first later apart both
        simp only [Bool.and_eq_true, beq_iff_eq] at both
        exact apart (both.1.1.trans both.2.1.symm)

end Users

/-! ## The first line of a connection -/

/-- A server of the text protocol answers requests as well. -/
def ServeRuntimeOptions.Speaks (options : ServeRuntimeOptions) : ConnectionProtocol → Prop
  | .text => options.remoteProtocol = .text
  | .json => options.remoteProtocol = .text ∨ options.remoteProtocol = .json

/-- The credentials the server finds in a line. -/
def lineCredentials (line : Bytes) : ConnectionProtocol → Option Credentials
  | .text => textCredentials line
  | .json => (parseJsonCommand line).bind jsonCredentials

/-- The server reads the line from a new connection, finds this user by the credentials
in it and goes on under the user's identity. -/
def Resolves (env : ServerEnv) (sessionId : Nat) (server : RemoteServerState) (line rest : Bytes)
    (user : RemoteUser) : Prop :=
  ∃ session credentials,
    runSession env sessionId (connectedSession server (line ++ newline :: rest)) [.read, .authenticate] =
      some session ∧
    Event.presented (snapshotRemoteState server) credentials ∈ session.log ∧
    foundUser server.users credentials = some user ∧ session.identity = credentials.identity user

section FirstLine

variable {env : ServerEnv} {sessionId : Nat} {server : RemoteServerState} {line rest : Bytes}
  {protocol : ConnectionProtocol}

/-- The session behind the first line of a connection to a server with users. -/
theorem openSession_registered (read : nextLine (line ++ newline :: rest) = some (line, rest))
    (detected : detectConnectionProtocol server.options line = some protocol) (registered : server.users ≠ []) :
    (connectedSession server (line ++ newline :: rest)).openSession sessionId =
      { server := setSessionProtocol sessionId protocol server
        protocol := protocol
        identity := .unknown
        phase := .received line
        input := rest
        log := [.line (tokenizeCommandLine (trimCopy line))] } := by
  have required : authRequired (snapshotRemoteState server) = true := by
    simp [authRequired, hasUserRegistry, snapshotRemoteState, registered]
  simp only [Session.openSession, connectedSession, read, snapshotRemoteState] at detected ⊢
  simp only [snapshotRemoteState] at required
  simp only [detected, required]
  rfl

/-- The identity the server gives to credentials. -/
def grantedIdentity (users : List RemoteUser) (credentials : Option Credentials) : Option SessionIdentity :=
  credentials.bind fun credentials => (foundUser users credentials).map credentials.identity

theorem authenticateWith_registered (accepted : SessionIdentity → Authentication)
    (credentials : Option Credentials) (registered : server.users ≠ []) :
    (∃ identity, grantedIdentity server.users credentials = some identity ∧
      authenticateWith accepted (snapshotRemoteState server) credentials .unknown = accepted identity) ∨
    (grantedIdentity server.users credentials = none ∧ ∃ response,
      authenticateWith accepted (snapshotRemoteState server) credentials .unknown = .answered .unknown response) := by
  have required : authRequired (snapshotRemoteState server) = true := by
    simp [authRequired, hasUserRegistry, snapshotRemoteState, registered]
  have found := @resolveIdentity_found (snapshotRemoteState server) registered
  have unknown : SessionIdentity.unknown.authenticated = false := rfl
  cases credentials with
  | none =>
      simp only [authenticateWith, required, unknown, Bool.not_true, Bool.false_eq_true, if_false]
      exact Or.inr ⟨rfl, _, rfl⟩
  | some presented =>
      simp only [authenticateWith, required, unknown, found, Bool.not_true, Bool.false_eq_true, if_false]
      cases owner : foundUser (snapshotRemoteState server).users presented with
      | none => exact Or.inr ⟨congrArg (Option.map presented.identity) owner, _, rfl⟩
      | some user => exact Or.inl ⟨_, congrArg (Option.map presented.identity) owner, rfl⟩

theorem lookedAt_registered (credentials : Option Credentials) (registered : server.users ≠ []) :
    Session.lookedAt (snapshotRemoteState server) credentials .unknown =
      credentials.toList.map (Event.presented (snapshotRemoteState server)) := by
  have required : authRequired (snapshotRemoteState server) = true := by
    simp [authRequired, hasUserRegistry, snapshotRemoteState, registered]
  simp only [Session.lookedAt, required]
  cases credentials with
  | none => rfl
  | some credentials => rfl

theorem firstLine_session (read : nextLine (line ++ newline :: rest) = some (line, rest))
    (detected : detectConnectionProtocol server.options line = some protocol) (registered : server.users ≠ []) :
    ∃ session, runSession env sessionId (connectedSession server (line ++ newline :: rest)) [.read, .authenticate] =
        some session ∧
      session.log = .line (tokenizeCommandLine (trimCopy line)) ::
        (lineCredentials line protocol).toList.map (Event.presented (snapshotRemoteState server)) ∧
      session.identity = (grantedIdentity server.users (lineCredentials line protocol)).getD .unknown := by
  have same : snapshotRemoteState (setSessionProtocol sessionId protocol server) = snapshotRemoteState server := rfl
  have first : sessionStep env sessionId (connectedSession server (line ++ newline :: rest)) .read =
      some ((connectedSession server (line ++ newline :: rest)).openSession sessionId) := rfl
  rw [runSession, runEvents, first, Option.bind_some, openSession_registered read detected registered, runEvents]
  cases protocol with
  | text =>
      refine ⟨_, rfl, ?_⟩
      simp only [Session.authenticateText, same, authenticateTextCommand, lineCredentials,
        lookedAt_registered _ registered]
      rcases authenticateWith_registered (fun resolved => .answered resolved (success "")) (textCredentials line)
        registered with ⟨identity, granted, outcome⟩ | ⟨refused, response, outcome⟩
      · rw [outcome, granted]
        exact ⟨rfl, rfl⟩
      · rw [outcome, refused]
        exact ⟨rfl, rfl⟩
  | json =>
      refine ⟨_, rfl, ?_⟩
      simp only [Session.authenticateJson, lineCredentials]
      cases parsed : parseJsonCommand line with
      | none => exact ⟨rfl, rfl⟩
      | some command =>
          simp only [same, authenticateJsonCommand, lookedAt_registered _ registered, Option.bind_some]
          rcases authenticateWith_registered .admitted (jsonCredentials command) registered with
            ⟨identity, granted, outcome⟩ | ⟨refused, response, outcome⟩
          · rw [outcome, granted]
            exact ⟨rfl, rfl⟩
          · rw [outcome, refused]
            exact ⟨rfl, rfl⟩

/-- A user is resolved by the first line exactly when the line holds the user's
credentials. -/
theorem resolves_iff {user : RemoteUser} (distinct : DistinctUsers server.users) (member : user ∈ server.users)
    (read : nextLine (line ++ newline :: rest) = some (line, rest))
    (detected : detectConnectionProtocol server.options line = some protocol) :
    Resolves env sessionId server line rest user ↔
      ∃ credentials, lineCredentials line protocol = some credentials ∧ user.Owns credentials := by
  have registered := List.ne_nil_of_mem member
  obtain ⟨session, run, log, identity⟩ :=
    @firstLine_session env sessionId _ _ _ _ read detected registered
  constructor
  · intro ⟨other, credentials, otherRun, presented, found, _⟩
    rw [run] at otherRun
    cases otherRun
    refine ⟨credentials, ?_, (foundUser_iff distinct member credentials).mp found⟩
    rw [log] at presented
    cases held : lineCredentials line protocol with
    | none => simp [held] at presented
    | some held' =>
        simp [held] at presented
        rw [presented]
  · intro ⟨credentials, held, owns⟩
    have found := (foundUser_iff distinct member credentials).mpr owns
    refine ⟨session, credentials, run, ?_, found, ?_⟩
    · simp [log, held]
    · simp [identity, held, grantedIdentity, found]

end FirstLine

/-! ## Matching credentials -/

/-- The profile has the token of the user, or the login name and the password. -/
def RemoteProfile.Carries (profile : RemoteProfile) (user : RemoteUser) : Prop :=
  (profile.token ≠ none ∧ profile.token = user.token) ∨
    (profile.username = some user.loginName ∧ profile.password ≠ none ∧ profile.password = user.password)

/-- The profile has no token that is not the user's. -/
def RemoteProfile.Uncontested (profile : RemoteProfile) (user : RemoteUser) : Prop :=
  profile.token = none ∨ profile.token = user.token

/-- What the client sends of its profile when it authenticates. -/
def RemoteProfile.sent (profile : RemoteProfile) : List Bytes :=
  match profile.token with
  | some token => [token]
  | none => profile.username.toList ++ profile.password.toList

section Matching

variable {env : ServerEnv} {sessionId : Nat} {server : RemoteServerState} {user : RemoteUser}
  {profile : RemoteProfile} {commandLine rest : Bytes}

theorem detect_request (speaks : server.options.Speaks .json) :
    detectConnectionProtocol server.options (jsonRequest commandLine profile) = some .json := by
  rcases speaks with text | json
  · rw [detectConnectionProtocol, text]
    simp [(jsonRequest_braced commandLine profile).2]
  · rw [detectConnectionProtocol, json]

/-- A line that begins with a letter is no request. -/
theorem detect_letter {line : Bytes} {letter : UInt8} (speaks : server.options.Speaks .text)
    (first : line.head? = some letter) (visible : isBlank letter = false) (ordinary : letter ≠ 123) :
    detectConnectionProtocol server.options line = some .text := by
  have unbraced : braced line = false := by
    cases line with
    | nil => cases first
    | cons c line =>
        cases first
        have leads : trimCopy (letter :: line) <+: letter :: line := by
          have kept : (letter :: line).dropWhile isBlank = letter :: line :=
            List.dropWhile_cons_of_neg (by simp [visible])
          rw [trimCopy, kept]
          exact List.rdropWhile_prefix isBlank _
        rw [braced]
        cases trimmed : trimCopy (letter :: line) with
        | nil => rfl
        | cons d rest =>
            rw [trimmed] at leads
            rw [(List.cons_prefix_cons.mp leads).1]
            simp [ordinary]
  rw [detectConnectionProtocol, show server.options.remoteProtocol = .text from speaks]
  simp [unbraced]

/-- Over JSON the user is resolved, unless another token comes first. -/
theorem json_resolves_iff (distinct : DistinctUsers server.users) (member : user ∈ server.users)
    (carries : profile.Carries user) (speaks : server.options.Speaks .json) :
    Resolves env sessionId server (jsonRequest commandLine profile) rest user ↔ profile.Uncontested user := by
  rw [resolves_iff distinct member (nextLine_jsonRequest commandLine profile rest) (detect_request speaks)]
  simp only [lineCredentials, parse_jsonRequest, Option.bind_some, jsonCredentials, RemoteProfile.Uncontested]
  cases token : profile.token with
  | some token =>
      simp [RemoteUser.Owns, eq_comm]
  | none =>
      rcases carries with ⟨present, _⟩ | ⟨username, present, password⟩
      · exact absurd token present
      · obtain ⟨value, held⟩ := Option.ne_none_iff_exists'.mp present
        rw [username, held]
        rw [held] at password
        simp [RemoteUser.Owns, RemoteUser.loginName, password.symm]

theorem authTokenLine_lines {token : Bytes} (value : LineValue token) :
    newline ∉ authTokenLine token ∧ carriageReturn ∉ authTokenLine token := by
  simp [authTokenLine, value.2.1, value.2.2, show newline ∉ bytes "auth token " by decide,
    show carriageReturn ∉ bytes "auth token " by decide]

theorem authBasicLine_lines {username password : Bytes} (login : LineValue username) (value : LineValue password) :
    newline ∉ authBasicLine username password ∧ carriageReturn ∉ authBasicLine username password := by
  simp [authBasicLine, login.2.1, login.2.2, value.2.1, value.2.2, show newline ∉ bytes "auth basic " by decide,
    show carriageReturn ∉ bytes "auth basic " by decide, show newline ≠ space by decide,
    show carriageReturn ≠ space by decide]

/-- Over the text protocol the user is resolved when nothing that is sent means
something to the tokenizer. -/
theorem text_resolves_iff (distinct : DistinctUsers server.users) (member : user ∈ server.users)
    (carries : profile.Carries user) (uncontested : profile.Uncontested user) (speaks : server.options.Speaks .text) :
    (∃ line, authLine profile = some line ∧ Resolves env sessionId server line rest user) ↔
      ∀ value ∈ profile.sent, value.any isSpecial = false := by
  cases token : profile.token with
  | some token' =>
      have own : user.token = some token' := by
        rcases uncontested with absent | same
        · rw [token] at absent
          cases absent
        · exact same.symm.trans token
      have value := distinct.token user member token' own
      have lines := authTokenLine_lines value
      have read := textCredentials_token value.1
      have line : authLine profile = some (authTokenLine token') := by simp [authLine, token]
      have sent : profile.sent = [token'] := by simp [RemoteProfile.sent, token]
      have resolves := @resolves_iff env sessionId _ _ _ _ _ distinct member
        (nextLine_terminated lines.1 lines.2 rest) (detect_letter speaks rfl (by decide) (by decide))
      simp only [line, Option.some.injEq, exists_eq_left', resolves, sent, List.forall_mem_singleton, lineCredentials]
      rw [← read]
      constructor
      · intro ⟨credentials, presented, owns⟩
        cases credentials with
        | token presentedToken =>
            rw [presented]
            have same : some token' = some presentedToken := own.symm.trans owns
            cases same
            rfl
        | basic login password => exact absurd presented textCredentials_token_kind
      · intro presented
        exact ⟨.token token', presented, own⟩
  | none =>
      rcases carries with ⟨present, _⟩ | ⟨username, present, password⟩
      · exact absurd token present
      · obtain ⟨value, held⟩ := Option.ne_none_iff_exists'.mp present
        have own : user.password = some value := by rw [← password, held]
        have login := distinct.login user member
        have secret := distinct.password user member value own
        have lines := authBasicLine_lines login secret
        have read := textCredentials_basic ⟨login.1, secret.1⟩
        have line : authLine profile = some (authBasicLine user.loginName value) := by
          simp [authLine, token, username, held]
        have sent : profile.sent = [user.loginName, value] := by
          simp [RemoteProfile.sent, token, username, held]
        have resolves := @resolves_iff env sessionId _ _ _ _ _ distinct member
          (nextLine_terminated lines.1 lines.2 rest) (detect_letter speaks rfl (by decide) (by decide))
        simp only [line, Option.some.injEq, exists_eq_left', resolves, sent, List.forall_mem_cons,
          List.not_mem_nil, false_implies, implies_true, and_true, lineCredentials]
        rw [← read]
        constructor
        · intro ⟨credentials, presented, owns⟩
          cases credentials with
          | token presentedToken => exact absurd presented textCredentials_basic_kind
          | basic presentedLogin presentedPassword =>
              rw [presented]
              have same : some value = some presentedPassword := own.symm.trans owns.2
              cases same
              rw [RemoteUser.loginName, owns.1]
        · intro presented
          exact ⟨.basic user.loginName value, presented, rfl, own⟩

/-- Whichever protocol the server speaks, the first line of a client with the credentials
of a user makes the server find exactly that user: as long as no other token comes first
and, over text, as long as no byte of the credentials means something to the tokenizer. -/
theorem matching_credentials_resolve (env : ServerEnv) (sessionId : Nat) (commandLine rest : Bytes)
    (distinct : DistinctUsers server.users) (member : user ∈ server.users) (carries : profile.Carries user)
    (serves : server.options.remoteProtocol = .text ∨ server.options.remoteProtocol = .json) :
    (Resolves env sessionId server (jsonRequest commandLine profile) rest user ↔ profile.Uncontested user) ∧
      ((∀ protocol, server.options.Speaks protocol → ∃ line, firstLine commandLine profile protocol = some line ∧
          Resolves env sessionId server line rest user) ↔
        profile.Uncontested user ∧
          (server.options.Speaks .text → ∀ value ∈ profile.sent, value.any isSpecial = false)) := by
  have json := @json_resolves_iff env sessionId _ _ _ commandLine rest
    distinct member carries serves
  refine ⟨json, ?_⟩
  constructor
  · intro resolves
    obtain ⟨line, sent, found⟩ := resolves .json serves
    cases sent
    have uncontested := json.mp found
    refine ⟨uncontested, fun speaks => ?_⟩
    exact (text_resolves_iff distinct member carries uncontested speaks).mp (resolves .text speaks)
  · intro ⟨uncontested, plain⟩ protocol speaks
    cases protocol with
    | text => exact (text_resolves_iff distinct member carries uncontested speaks).mpr (plain speaks)
    | json => exact ⟨_, rfl, json.mpr uncontested⟩

end Matching

/-! ## A server with one user -/

def tokenUser (token : Bytes) : RemoteUser := ⟨bytes "alice", some token, none, some (bytes "hunter2"), false⟩

def tokenServer (token : Bytes) : RemoteServerState := { openServer with users := [tokenUser token] }

theorem tokenServer_distinct {token : Bytes} (value : LineValue token) :
    DistinctUsers (tokenServer token).users where
  tokens := List.pairwise_singleton _ _
  logins := List.pairwise_singleton _ _
  passwords := List.pairwise_singleton _ _
  token user member presented held := by
    rw [List.mem_singleton.mp member] at held
    cases held
    exact value
  login user member := by
    rw [List.mem_singleton.mp member, show (tokenUser token).loginName = bytes "alice" from rfl]
    exact ⟨by decide, by decide, by decide⟩
  password user member presented held := by
    rw [List.mem_singleton.mp member] at held
    cases held
    exact ⟨by decide, by decide, by decide⟩

theorem matching_credentials_resolve_secret :
    let profile : RemoteProfile := ⟨some (bytes "secret"), none, none⟩
    ∀ protocol, openServer.options.Speaks protocol → ∃ line, firstLine (bytes "list") profile protocol = some line ∧
      Resolves listingEnv 1 (tokenServer (bytes "secret")) line [] (tokenUser (bytes "secret")) := by
  intro profile protocol speaks
  have matching := @matching_credentials_resolve _ _ profile listingEnv 1 (bytes "list") []
    (@tokenServer_distinct (bytes "secret") ⟨by decide, by decide, by decide⟩) List.mem_cons_self
    (Or.inl ⟨by decide, rfl⟩) (Or.inl rfl)
  refine matching.2.mpr ⟨Or.inr rfl, fun _ value sent => ?_⟩ protocol speaks
  rw [List.mem_singleton.mp sent]
  decide

/-- A token with a blank in it is cut by the server. -/
theorem spaced_token_unresolved :
    let profile : RemoteProfile := ⟨some (bytes "se cret"), none, none⟩
    DistinctUsers (tokenServer (bytes "se cret")).users ∧ profile.Carries (tokenUser (bytes "se cret")) ∧
      textCredentials (authTokenLine (bytes "se cret")) = some (.token (bytes "se")) ∧
      ¬ ∀ protocol, openServer.options.Speaks protocol → ∃ line, firstLine (bytes "list") profile protocol = some line ∧
        Resolves listingEnv 1 (tokenServer (bytes "se cret")) line [] (tokenUser (bytes "se cret")) := by
  intro profile
  have distinct := @tokenServer_distinct (bytes "se cret") ⟨by decide, by decide, by decide⟩
  have carries : profile.Carries (tokenUser (bytes "se cret")) := Or.inl ⟨by decide, rfl⟩
  refine ⟨distinct, carries, by decide +kernel, fun resolves => ?_⟩
  have text := (text_resolves_iff distinct List.mem_cons_self carries (Or.inr rfl) rfl).mp (resolves .text rfl)
  exact absurd (text (bytes "se cret") (List.mem_singleton.mpr rfl)) (by decide)

end ReqPack.Remote
