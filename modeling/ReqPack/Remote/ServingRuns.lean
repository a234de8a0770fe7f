import ReqPack.Data.Machine
import ReqPack.Remote.Serving

/-! # Runs of the server

What holds of the table of sessions, of the accept loop and of the commands that were
carried out, in whatever order the accept loop and the threads of the sessions go on.
-/

namespace ReqPack.Remote

open ReqPack.Data
open ReqPack.Data.Ascii

namespace Serving

variable {env : ServerEnv} {serving next : Serving} {sessionId : Nat} {connection : Connection} {session : Session}

/-! ## The table of sessions -/

/-- A connection acts under identities it was given; before that it is nobody. -/
structure Trusted (connection : Connection) : Prop where
  authorized : ∀ server, (connection.session server).Authorized
  unknown : connection.identity.authenticated = false → connection.identity = .unknown

/-- The table lists the connections that have a thread, each as it is. -/
structure Kept (serving : Serving) : Prop where
  listed : ∀ info ∈ serving.server.sessions,
    ∃ connection, serving.connections info.id = some connection ∧ info = connection.row info.id
  running : ∀ sessionId connection, serving.connections sessionId = some connection →
    ∃ info ∈ serving.server.sessions, info.id = sessionId
  distinct : (serving.server.sessions.map RemoteSessionInfo.id).Nodup
  numbered : ∀ sessionId connection, serving.connections sessionId = some connection → sessionId < serving.nextSessionId
  trusted : ∀ sessionId connection, serving.connections sessionId = some connection → Trusted connection
  departed : ∀ connection ∈ serving.departed, Trusted connection

theorem start_kept (config : Config.ReqPackConfig) (options : ServeRuntimeOptions) (users : List RemoteUser)
    (configOverrides : Config.ReqPackConfigOverrides) : (start config options users configOverrides).Kept where
  listed _ member := by cases member
  running _ _ present := by cases present
  distinct := List.nodup_nil
  numbered _ _ present := by cases present
  trusted _ _ present := by cases present
  departed _ member := by cases member

theorem authorized_elsewhere (authorized : session.Authorized) (server : RemoteServerState) :
    (session.connection.session server).Authorized :=
  ⟨authorized.log, authorized.identity, authorized.admitted, authorized.storing⟩

theorem connected_trusted (server : RemoteServerState) (input : Bytes) :
    Trusted (connectedSession server input).connection :=
  ⟨authorized_elsewhere (connectedSession_authorized server input), fun _ => rfl⟩

theorem Kept.elsewhere (kept : serving.Kept) (sessions : next.server.sessions = serving.server.sessions)
    (numbers : next.nextSessionId = serving.nextSessionId) (connections : next.connections = serving.connections)
    (departed : next.departed = serving.departed) : next.Kept := by
  constructor
  · rw [sessions, connections]
    exact kept.listed
  · rw [sessions, connections]
    exact kept.running
  · rw [sessions]
    exact kept.distinct
  · rw [numbers, connections]
    exact kept.numbered
  · rw [connections]
    exact kept.trusted
  · rw [departed]
    exact kept.departed

theorem update_eq_some {connections : Nat → Option Connection} {other : Nat} {given : Connection}
    (present : Function.update connections sessionId (some connection) other = some given) :
    (other = sessionId ∧ given = connection) ∨ (other ≠ sessionId ∧ connections other = some given) := by
  by_cases same : other = sessionId
  · subst same
    rw [Function.update_self] at present
    exact Or.inl ⟨rfl, (Option.some.inj present).symm⟩
  · rw [Function.update_of_ne same] at present
    exact Or.inr ⟨same, present⟩

theorem Kept.fresh (kept : serving.Kept) {info : RemoteSessionInfo} (member : info ∈ serving.server.sessions) :
    info.id ≠ serving.nextSessionId := by
  obtain ⟨connection, present, -⟩ := kept.listed info member
  exact Nat.ne_of_lt (kept.numbered _ _ present)

theorem register_kept (kept : serving.Kept) (input : Bytes) : (serving.register input).Kept where
  listed info member := by
    rcases List.mem_append.mp member with old | new
    · obtain ⟨connection, present, row⟩ := kept.listed info old
      exact ⟨connection, (Function.update_of_ne (kept.fresh old) _ _).trans present, row⟩
    · cases List.mem_singleton.mp new
      exact ⟨_, Function.update_self _ _ _, rfl⟩
  running sessionId connection present := by
    rcases update_eq_some present with ⟨rfl, rfl⟩ | ⟨-, present⟩
    · exact ⟨_, List.mem_append_right _ (List.mem_singleton_self _), rfl⟩
    · obtain ⟨info, member, same⟩ := kept.running sessionId connection present
      exact ⟨info, List.mem_append_left _ member, same⟩
  distinct := by
    simp only [register, setSessions, List.map_append, List.map_singleton]
    refine List.nodup_append.mpr ⟨kept.distinct, List.nodup_singleton _, ?_⟩
    intro id old other new same
    obtain ⟨info, member, rfl⟩ := List.mem_map.mp old
    cases List.mem_singleton.mp new
    exact kept.fresh member same
  numbered sessionId connection present := by
    rcases update_eq_some present with ⟨rfl, -⟩ | ⟨-, present⟩
    · exact Nat.lt_succ_self _
    · exact Nat.lt_succ_of_lt (kept.numbered sessionId connection present)
  trusted sessionId connection present := by
    rcases update_eq_some present with ⟨-, rfl⟩ | ⟨-, present⟩
    · exact connected_trusted _ _
    · exact kept.trusted sessionId connection present
  departed := kept.departed

theorem leave_kept (kept : serving.Kept) (present : serving.connections sessionId = some connection) :
    (serving.leave sessionId connection).Kept := by
  have others : ∀ other given, Function.update serving.connections sessionId none other = some given →
      other ≠ sessionId ∧ serving.connections other = some given := by
    intro other given found
    by_cases same : other = sessionId
    · rw [same, Function.update_self] at found
      cases found
    · rw [Function.update_of_ne same] at found
      exact ⟨same, found⟩
  constructor
  · intro info member
    obtain ⟨member, apart⟩ := List.mem_filter.mp member
    obtain ⟨given, found, row⟩ := kept.listed info member
    exact ⟨given, (Function.update_of_ne (by simpa using apart) _ _).trans found, row⟩
  · intro other given found
    obtain ⟨apart, found⟩ := others other given found
    obtain ⟨info, member, rfl⟩ := kept.running other given found
    exact ⟨info, List.mem_filter.mpr ⟨member, by simpa using apart⟩, rfl⟩
  · exact kept.distinct.sublist (List.filter_sublist.map _)
  · intro other given found
    exact kept.numbered other given (others other given found).2
  · intro other given found
    exact kept.trusted other given (others other given found).2
  · intro given member
    rcases List.mem_append.mp member with old | new
    · exact kept.departed given old
    · cases List.mem_singleton.mp new
      exact kept.trusted sessionId connection present

theorem resume_kept (kept : serving.Kept) (present : serving.connections sessionId = some connection)
    (redraws : Redraws sessionId (connection.session serving.server) session) (trusted : Trusted session.connection) :
    (serving.resume sessionId session).Kept := by
  have listed : session.server.sessions = serving.server.sessions.map fun info =>
    if info.id = sessionId then session.connection.row sessionId else info := redraws
  constructor
  · intro info member
    change info ∈ session.server.sessions at member
    rw [listed] at member
    obtain ⟨old, before, rfl⟩ := List.mem_map.mp member
    split
    · exact ⟨session.connection, Function.update_self _ _ _, rfl⟩
    · next apart =>
        obtain ⟨given, found, row⟩ := kept.listed old before
        exact ⟨given, (Function.update_of_ne apart _ _).trans found, row⟩
  · intro other given found
    have before : ∃ earlier, serving.connections other = some earlier := by
      rcases update_eq_some found with ⟨rfl, -⟩ | ⟨-, found⟩
      · exact ⟨connection, present⟩
      · exact ⟨given, found⟩
    obtain ⟨earlier, found⟩ := before
    obtain ⟨info, member, same⟩ := kept.running other earlier found
    refine ⟨if info.id = sessionId then session.connection.row sessionId else info, ?_, ?_⟩
    · change _ ∈ session.server.sessions
      rw [listed]
      exact List.mem_map_of_mem member
    · split
      · next here => exact here.symm.trans same
      · exact same
  · change (session.server.sessions.map RemoteSessionInfo.id).Nodup
    rw [listed, List.map_map]
    have same : ∀ info ∈ serving.server.sessions, (RemoteSessionInfo.id ∘ fun info =>
        if info.id = sessionId then session.connection.row sessionId else info) info = info.id := by
      intro info _
      by_cases here : info.id = sessionId
      · rw [Function.comp_apply, if_pos here, here]
        rfl
      · rw [Function.comp_apply, if_neg here]
    rw [List.map_congr_left same]
    exact kept.distinct
  · intro other given found
    rcases update_eq_some found with ⟨rfl, -⟩ | ⟨-, found⟩
    · exact kept.numbered _ _ present
    · exact kept.numbered other given found
  · intro other given found
    rcases update_eq_some found with ⟨-, rfl⟩ | ⟨-, found⟩
    · exact trusted
    · exact kept.trusted other given found
  · exact kept.departed

theorem Kept.shown (kept : serving.Kept) (present : serving.connections sessionId = some connection) :
    (connection.session serving.server).Shown sessionId := by
  intro info member same
  obtain ⟨given, found, row⟩ := kept.listed info member
  rw [same, present] at found
  cases found
  rw [same] at row
  exact row

theorem runCommand_redraws {source : ReloadSource} {commandLine : Bytes} (shown : session.Shown sessionId) :
    Redraws sessionId session (session.runCommand env source commandLine) := by
  refine redraws_of_same ?_ rfl shown
  change (executeCommand env source session.identity commandLine session.server).state.sessions = _
  rcases executeCommand_cases env source session.identity commandLine session.server with same | ⟨stopped, -⟩ | ⟨loaded, -⟩
  · rw [same]
  · rw [stopped]
  · exact (reloadRemoteState_sessions loaded).1

theorem step_trusted {input : Input} (trusted : Trusted connection) (own : input.isReload = false)
    (stepped : sessionStep env sessionId (connection.session serving.server) input = some session) :
    Trusted session.connection where
  authorized := authorized_elsewhere (Session.step_authorized (trusted.authorized serving.server) stepped)
  unknown unauthenticated := by
    have identity : session.identity = connection.identity ∨ session.identity.authenticated = true := by
      rcases sessionStep_cases own stepped with settles | ⟨reached, source, commandLine, settles, -, rfl⟩
      · exact settles.identity
      · exact settles.identity
    change session.identity.authenticated = false at unauthenticated
    change session.identity = .unknown
    rcases identity with same | known
    · rw [same] at unauthenticated ⊢
      exact trusted.unknown unauthenticated
    · rw [known] at unauthenticated
      cases unauthenticated

theorem step_redraws {input : Input} (own : input.isReload = false) (shown : session.Shown sessionId) {after : Session}
    (stepped : sessionStep env sessionId session input = some after) : Redraws sessionId session after := by
  rcases sessionStep_cases own stepped with settles | ⟨reached, source, commandLine, settles, -, rfl⟩
  · exact settles.table shown
  · exact (settles.table shown).trans (runCommand_redraws (settles.table shown).shown)

theorem serveStep_cases {step : ServeStep} (stepped : serveStep env serving step = some next) :
    (∃ loop signalled shutdownRequested, next = { serving with
      accepting := loop, signalled := signalled
      server := { serving.server with shutdownRequested := shutdownRequested } } ∧
      (shutdownRequested = true → serving.stopping = true) ∧ (serving.signalled = true → signalled = true)) ∨
    (∃ input, serving.accepting = .admitted input ∧ next = serving.register input) ∨
    (∃ sessionId connection session input, step = .thread sessionId input ∧ input.isReload = false ∧
      serving.connections sessionId = some connection ∧
      sessionStep env sessionId (connection.session serving.server) input = some session ∧
      next = serving.resume sessionId session) ∨
    (∃ sessionId connection, serving.connections sessionId = some connection ∧
      next = serving.resume sessionId ({ connection with phase := .closed }.session serving.server)) ∨
    ∃ sessionId connection, serving.connections sessionId = some connection ∧ next = serving.leave sessionId connection := by
  have still : ∀ moved, ∃ loop signalled shutdownRequested, { serving with accepting := moved } =
      { serving with
        accepting := loop, signalled := signalled
        server := { serving.server with shutdownRequested := shutdownRequested } } ∧
      (shutdownRequested = true → serving.stopping = true) ∧ (serving.signalled = true → signalled = true) := fun moved =>
    ⟨moved, serving.signalled, serving.server.shutdownRequested, rfl, (fun requested => by rw [stopping, requested]; rfl), id⟩
  cases step with
  | signal =>
      cases stepped
      exact Or.inl ⟨serving.accepting, true, serving.server.shutdownRequested, rfl,
        (fun requested => by rw [stopping, requested]; rfl), fun _ => rfl⟩
  | test =>
      simp only [serveStep] at stepped
      split at stepped
      · split at stepped
        · next stopping =>
            cases stepped
            exact Or.inl ⟨.finished, serving.signalled, true, rfl, (fun _ => stopping), id⟩
        · cases stepped
          exact Or.inl (still .accepting)
      · cases stepped
  | accept input =>
      simp only [serveStep] at stepped
      split at stepped
      · split at stepped
        · cases stepped
          exact Or.inl (still _)
        · cases stepped
          exact Or.inl (still .testing)
      · cases stepped
  | snapshot =>
      simp only [serveStep] at stepped
      split at stepped
      · cases stepped
        exact Or.inl (still _)
      · cases stepped
  | count =>
      simp only [serveStep] at stepped
      split at stepped
      · split at stepped
        · cases stepped
          exact Or.inl (still .testing)
        · cases stepped
          exact Or.inl (still _)
      · cases stepped
  | register =>
      simp only [serveStep] at stepped
      split at stepped
      · next input admitted =>
          cases stepped
          exact Or.inr (Or.inl ⟨input, admitted, rfl⟩)
      · cases stepped
  | thread sessionId input =>
      simp only [serveStep] at stepped
      split at stepped
      · cases stepped
      · next own =>
          obtain ⟨connection, present, stepped⟩ := Option.bind_eq_some_iff.mp stepped
          obtain ⟨session, moved, rfl⟩ := Option.map_eq_some_iff.mp stepped
          exact Or.inr (Or.inr (Or.inl
            ⟨sessionId, connection, session, input, rfl, by simpa using own, present, moved, rfl⟩))
  | hangUp sessionId =>
      simp only [serveStep] at stepped
      obtain ⟨connection, present, stepped⟩ := Option.bind_eq_some_iff.mp stepped
      split at stepped
      · cases stepped
        exact Or.inr (Or.inr (Or.inr (Or.inl ⟨sessionId, connection, present, rfl⟩)))
      · cases stepped
        exact Or.inr (Or.inr (Or.inr (Or.inl ⟨sessionId, connection, present, rfl⟩)))
      · cases stepped
  | leave sessionId =>
      simp only [serveStep] at stepped
      obtain ⟨connection, present, stepped⟩ := Option.bind_eq_some_iff.mp stepped
      split at stepped
      · cases stepped
        exact Or.inr (Or.inr (Or.inr (Or.inr ⟨sessionId, connection, present, rfl⟩)))
      · cases stepped

theorem hungUp_trusted (trusted : Trusted connection) (server : RemoteServerState) :
    Trusted ({ connection with phase := .closed }.session server).connection :=
  ⟨fun elsewhere => @Session.moved_authorized (connection.session elsewhere) elsewhere connection.protocol .closed
    connection.input (trusted.authorized elsewhere) rfl, trusted.unknown⟩

theorem serveStep_kept {step : ServeStep} (kept : serving.Kept) (stepped : serveStep env serving step = some next) :
    next.Kept := by
  rcases serveStep_cases stepped with ⟨_, _, _, rfl, -⟩ | ⟨input, -, rfl⟩ |
    ⟨sessionId, connection, session, input, -, own, present, moved, rfl⟩ | ⟨sessionId, connection, present, rfl⟩ |
    ⟨sessionId, connection, present, rfl⟩
  · exact kept.elsewhere rfl rfl rfl rfl
  · exact register_kept kept input
  · exact resume_kept kept present (step_redraws own (kept.shown present) moved)
      (step_trusted (kept.trusted sessionId connection present) own moved)
  · exact resume_kept kept present (redraws_of_same rfl rfl (kept.shown present))
      (hungUp_trusted (kept.trusted sessionId connection present) serving.server)
  · exact leave_kept kept present

/-! ## Commands of administrators -/

/-- The connection has a thread, or had one. -/
def Hosts (serving : Serving) (connection : Connection) : Prop :=
  (∃ sessionId, serving.connections sessionId = some connection) ∨ connection ∈ serving.departed

end Serving

/-- A command of the connection had the effect. -/
def Connection.Commanded (connection : Connection) (effect : Effect) : Prop :=
  ∃ state identity commandLine effects, Event.executed state identity commandLine effects ∈ connection.log ∧ effect ∈ effects

/-- A command of the connection had the effect, after the connection presented the
credentials of a user who is an administrator. -/
def Connection.Administered (connection : Connection) (effect : Effect) : Prop :=
  ∃ before state identity commandLine effects after,
    connection.log = before ++ .executed state identity commandLine effects :: after ∧ effect ∈ effects ∧
      ∃ snapshot credentials user, Event.presented snapshot credentials ∈ before ∧ user ∈ snapshot.users ∧
        user.Owns credentials ∧ user.isAdmin = true

namespace Serving

variable {env : ServerEnv} {serving next : Serving} {sessionId : Nat} {connection later : Connection} {session after : Session}

theorem commanded_later {effect : Effect} (grown : connection.log <+: later.log) (commanded : connection.Commanded effect) :
    later.Commanded effect := by
  obtain ⟨state, identity, commandLine, effects, member, had⟩ := commanded
  exact ⟨state, identity, commandLine, effects, grown.subset member, had⟩

theorem granted_administrator {before : List Event} {identity : SessionIdentity} (granted : Granted before identity)
    (admin : identity.isAdmin = true) :
    ∃ snapshot credentials user, Event.presented snapshot credentials ∈ before ∧ user ∈ snapshot.users ∧
      user.Owns credentials ∧ user.isAdmin = true ∧ identity.userId = user.id := by
  rcases granted with ⟨snapshot, credentials, member, -, grants⟩ | ⟨_, _, _, rfl⟩
  · rcases grants with ⟨-, user, known, owns, named, same⟩ | ⟨-, -, ordinary⟩
    · exact ⟨snapshot, credentials, user, member, known, owns, same.symm.trans admin, named⟩
    · rw [ordinary] at admin
      cases admin
  · cases admin

theorem Trusted.administered (trusted : Trusted connection) {effect : Effect} (privileged : effect.privileged = true)
    (commanded : connection.Commanded effect) : connection.Administered effect := by
  obtain ⟨state, identity, commandLine, effects, member, had⟩ := commanded
  obtain ⟨before, rest, split⟩ := List.append_of_mem member
  have here := authorizedFrom_at (trusted.authorized
    ⟨state.config, state.options, state.users, [], state.configOverrides, false⟩).log split
  obtain ⟨snapshot, credentials, user, presented, known, owns, admin, -⟩ :=
    granted_administrator here.1 (here.2 effect had privileged)
  exact ⟨before, state, identity, commandLine, effects, rest, split, had, snapshot, credentials, user, presented,
    known, owns, admin⟩

theorem runCommand_commanded {source : ReloadSource} {commandLine : Bytes} {effect : Effect}
    (had : effect ∈ (executeCommand env source session.identity commandLine session.server).effects) :
    (session.runCommand env source commandLine).connection.Commanded effect :=
  ⟨_, _, _, _, List.mem_append_right _ (List.mem_singleton_self _), had⟩

theorem sessionStep_log {input : Input} (own : input.isReload = false)
    (stepped : sessionStep env sessionId session input = some after) : session.log <+: after.log := by
  rcases sessionStep_cases own stepped with settles | ⟨reached, source, commandLine, settles, -, rfl⟩
  · exact settles.log
  · exact settles.log.trans (List.prefix_append _ _)

theorem sessionStep_shutdown {input : Input} (own : input.isReload = false)
    (stepped : sessionStep env sessionId session input = some after) :
    after.server.shutdownRequested = session.server.shutdownRequested ∨ after.connection.Commanded .shutdown := by
  rcases sessionStep_cases own stepped with settles | ⟨reached, source, commandLine, settles, -, rfl⟩
  · obtain ⟨sessions, same⟩ := settles.server
    exact Or.inl (by rw [same])
  · obtain ⟨sessions, same⟩ := settles.server
    have before : reached.server.shutdownRequested = session.server.shutdownRequested := by rw [same]
    change (executeCommand env source reached.identity commandLine reached.server).state.shutdownRequested = _ ∨ _
    rcases executeCommand_cases env source reached.identity commandLine reached.server with still | ⟨-, had⟩ | ⟨loaded, -⟩
    · rw [still]
      exact Or.inl before
    · exact Or.inr (runCommand_commanded had)
    · exact Or.inl ((reloadRemoteState_sessions loaded).2.trans before)

theorem sessionStep_reload {input : Input} (own : input.isReload = false)
    (stepped : sessionStep env sessionId session input = some after) :
    snapshotRemoteState after.server = snapshotRemoteState session.server ∨
      ∃ source, after.connection.Commanded (.reloadConfig source) := by
  rcases sessionStep_cases own stepped with settles | ⟨reached, source, commandLine, settles, -, rfl⟩
  · obtain ⟨sessions, same⟩ := settles.server
    exact Or.inl (by rw [same]; rfl)
  · obtain ⟨sessions, same⟩ := settles.server
    have before : snapshotRemoteState reached.server = snapshotRemoteState session.server := by rw [same]; rfl
    change snapshotRemoteState (executeCommand env source reached.identity commandLine reached.server).state = _ ∨ _
    rcases executeCommand_cases env source reached.identity commandLine reached.server with still | ⟨stopped, -⟩ | ⟨-, had⟩
    · rw [still]
      exact Or.inl before
    · rw [stopped]
      exact Or.inl before
    · exact Or.inr ⟨source, runCommand_commanded had⟩

theorem Hosts.step {step : ServeStep} (kept : serving.Kept) (hosts : serving.Hosts connection)
    (stepped : serveStep env serving step = some next) : ∃ later, next.Hosts later ∧ connection.log <+: later.log := by
  have resumed : ∀ {sessionId : Nat} {old : Connection} {session : Session},
      serving.connections sessionId = some old → old.log <+: session.log →
        ∃ later, (serving.resume sessionId session).Hosts later ∧ connection.log <+: later.log := by
    intro sessionId old session present grown
    rcases hosts with ⟨other, found⟩ | gone
    · by_cases same : other = sessionId
      · rw [same, present] at found
        cases found
        exact ⟨session.connection, Or.inl ⟨sessionId, Function.update_self _ _ _⟩, grown⟩
      · exact ⟨connection, Or.inl ⟨other, (Function.update_of_ne same _ _).trans found⟩, List.prefix_rfl⟩
    · exact ⟨connection, Or.inr gone, List.prefix_rfl⟩
  rcases serveStep_cases stepped with ⟨_, _, _, rfl, -⟩ | ⟨input, -, rfl⟩ |
    ⟨sessionId, old, session, input, -, own, present, moved, rfl⟩ | ⟨sessionId, old, present, rfl⟩ |
    ⟨sessionId, old, present, rfl⟩
  · exact ⟨connection, hosts, List.prefix_rfl⟩
  · refine ⟨connection, ?_, List.prefix_rfl⟩
    rcases hosts with ⟨other, found⟩ | gone
    · exact Or.inl ⟨other, (Function.update_of_ne (Nat.ne_of_lt (kept.numbered _ _ found)) _ _).trans found⟩
    · exact Or.inr gone
  · exact resumed present (sessionStep_log own moved)
  · exact resumed present List.prefix_rfl
  · refine ⟨connection, ?_, List.prefix_rfl⟩
    rcases hosts with ⟨other, found⟩ | gone
    · by_cases same : other = sessionId
      · rw [same, present] at found
        cases found
        exact Or.inr (List.mem_append_right _ (List.mem_singleton_self _))
      · exact Or.inl ⟨other, (Function.update_of_ne same _ _).trans found⟩
    · exact Or.inr (List.mem_append_left _ gone)

/-- A shutdown and a change of configuration, options or users come from commands. -/
structure Ordered (initial : RemoteStateSnapshot) (serving : Serving) : Prop where
  kept : serving.Kept
  shutdown : serving.server.shutdownRequested = true →
    serving.signalled = true ∨ ∃ connection, serving.Hosts connection ∧ connection.Commanded .shutdown
  reload : snapshotRemoteState serving.server = initial ∨
    ∃ connection source, serving.Hosts connection ∧ connection.Commanded (.reloadConfig source)

theorem commanded_step {step : ServeStep} {effect : Effect} (kept : serving.Kept)
    (commanded : ∃ connection, serving.Hosts connection ∧ connection.Commanded effect)
    (stepped : serveStep env serving step = some next) :
    ∃ connection, next.Hosts connection ∧ connection.Commanded effect := by
  obtain ⟨connection, hosts, did⟩ := commanded
  obtain ⟨later, hosts, grown⟩ := hosts.step kept stepped
  exact ⟨later, hosts, commanded_later grown did⟩

theorem serveStep_signalled {step : ServeStep} (signalled : serving.signalled = true)
    (stepped : serveStep env serving step = some next) : next.signalled = true := by
  rcases serveStep_cases stepped with ⟨_, _, _, rfl, -, stays⟩ | ⟨_, -, rfl⟩ | ⟨_, _, _, _, -, -, -, -, rfl⟩ | ⟨_, _, -, rfl⟩ |
    ⟨_, _, -, rfl⟩
  · exact stays signalled
  · exact signalled
  · exact signalled
  · exact signalled
  · exact signalled

theorem serveStep_ordered {initial : RemoteStateSnapshot} {step : ServeStep} (ordered : serving.Ordered initial)
    (stepped : serveStep env serving step = some next) : next.Ordered initial := by
  have again : serving.server.shutdownRequested = true →
      next.signalled = true ∨ ∃ connection, next.Hosts connection ∧ connection.Commanded .shutdown := by
    intro requested
    rcases ordered.shutdown requested with signalled | commanded
    · exact Or.inl (serveStep_signalled signalled stepped)
    · exact Or.inr (commanded_step ordered.kept commanded stepped)
  have reloaded : (∃ connection source, serving.Hosts connection ∧ connection.Commanded (.reloadConfig source)) →
      ∃ connection source, next.Hosts connection ∧ connection.Commanded (.reloadConfig source) := by
    rintro ⟨connection, source, hosts, did⟩
    obtain ⟨later, hosts, did⟩ := commanded_step ordered.kept ⟨connection, hosts, did⟩ stepped
    exact ⟨later, source, hosts, did⟩
  refine ⟨serveStep_kept ordered.kept stepped, ?_, ?_⟩
  · intro requested
    rcases serveStep_cases stepped with ⟨_, _, _, rfl, cause, -⟩ | ⟨input, -, rfl⟩ |
      ⟨sessionId, old, session, input, -, own, present, moved, rfl⟩ | ⟨sessionId, old, present, rfl⟩ |
      ⟨sessionId, old, present, rfl⟩
    · have stopping := cause requested
      rw [Serving.stopping, Bool.or_eq_true] at stopping
      rcases stopping with before | signalled
      · exact again before
      · exact Or.inl (serveStep_signalled signalled stepped)
    · exact again requested
    · rcases sessionStep_shutdown own moved with same | commanded
      · exact again (same.symm.trans requested)
      · exact Or.inr ⟨session.connection, Or.inl ⟨sessionId, Function.update_self _ _ _⟩, commanded⟩
    · exact again requested
    · exact again requested
  · rcases serveStep_cases stepped with ⟨_, _, _, rfl, -⟩ | ⟨input, -, rfl⟩ |
      ⟨sessionId, old, session, input, -, own, present, moved, rfl⟩ | ⟨sessionId, old, present, rfl⟩ |
      ⟨sessionId, old, present, rfl⟩
    · exact ordered.reload.imp id reloaded
    · exact ordered.reload.imp id reloaded
    · rcases sessionStep_reload own moved with same | ⟨source, commanded⟩
      · exact ordered.reload.imp same.trans reloaded
      · exact Or.inr ⟨session.connection, source, Or.inl ⟨sessionId, Function.update_self _ _ _⟩, commanded⟩
    · exact ordered.reload.imp id reloaded
    · exact ordered.reload.imp id reloaded

/-! ## The accept loop -/

/-- A reload keeps the limit at or below a bound. -/
def limitedBy (bound : Nat) : ServeStep → Prop
  | .thread _ input => ∀ loaded users, input.source = some (.ok (loaded, users)) → loaded.remote.maxConnections ≤ bound
  | _ => True

/-- The limit stays at or below the bound, and so do the sessions, with the one the accept
loop has room for. -/
structure Bounded (bound : Nat) (serving : Serving) : Prop where
  kept : serving.Kept
  options : serving.server.options.maxConnections ≤ bound
  sessions : serving.server.sessions.length ≤ bound
  limited : ∀ input maxConnections, serving.accepting = .limited input maxConnections → maxConnections ≤ bound
  admitted : ∀ input, serving.accepting = .admitted input → serving.server.sessions.length < bound

theorem reloadedConfig_remote {overrides : Config.ReqPackConfigOverrides} {loaded : Config.ReqPackConfig} :
    (reloadedConfig env overrides loaded).remote = loaded.remote := by
  simp only [reloadedConfig]
  split
  · split <;> rfl
  · rfl

theorem reloaded_limit {bound : Nat} {source : ReloadSource} {state loaded : RemoteServerState}
    (limited : ∀ config users, source = .ok (config, users) → config.remote.maxConnections ≤ bound)
    (below : state.options.maxConnections ≤ bound) (read : reloadRemoteState env source state = .ok loaded) :
    loaded.options.maxConnections ≤ bound := by
  cases source with
  | error message => cases read
  | ok files =>
      cases read
      simp only [reloadedOptions]
      split
      · exact below
      · rw [reloadedConfig_remote]
        exact limited files.1 files.2 rfl

theorem sessionStep_limit {bound : Nat} {input : Input} (own : input.isReload = false)
    (limited : ∀ loaded users, input.source = some (.ok (loaded, users)) → loaded.remote.maxConnections ≤ bound)
    (below : session.server.options.maxConnections ≤ bound)
    (stepped : sessionStep env sessionId session input = some after) : after.server.options.maxConnections ≤ bound := by
  rcases sessionStep_cases own stepped with settles | ⟨reached, source, commandLine, settles, read, rfl⟩
  · obtain ⟨sessions, same⟩ := settles.server
    rw [same]
    exact below
  · obtain ⟨sessions, same⟩ := settles.server
    have before : reached.server.options.maxConnections ≤ bound := by
      rw [same]
      exact below
    change (executeCommand env source reached.identity commandLine reached.server).state.options.maxConnections ≤ bound
    rcases executeCommand_cases env source reached.identity commandLine reached.server with still | ⟨stopped, -⟩ | ⟨loaded, -⟩
    · rw [still]
      exact before
    · rw [stopped]
      exact before
    · exact reloaded_limit (fun config users given => limited config users (by rw [read, given])) before loaded

theorem serveStep_bounded {bound : Nat} {step : ServeStep} (bounded : serving.Bounded bound)
    (limited : limitedBy bound step) (stepped : serveStep env serving step = some next) : next.Bounded bound := by
  have kept := serveStep_kept bounded.kept stepped
  -- a step that only moves the accept loop
  have looped : ∀ loop, next = { serving with accepting := loop } →
      (∀ input maxConnections, loop = .limited input maxConnections → maxConnections ≤ bound) →
      (∀ input, loop = .admitted input → serving.server.sessions.length < bound) → next.Bounded bound := by
    intro loop same limited admitted
    subst same
    exact ⟨kept, bounded.options, bounded.sessions, limited, admitted⟩
  cases step with
  | signal =>
      cases stepped
      exact ⟨kept, bounded.options, bounded.sessions, bounded.limited, bounded.admitted⟩
  | test =>
      simp only [serveStep] at stepped
      split at stepped
      · split at stepped
        · cases stepped
          exact ⟨kept, bounded.options, bounded.sessions, (fun _ _ wrong => by cases wrong), fun _ wrong => by cases wrong⟩
        · cases stepped
          exact looped .accepting rfl (fun _ _ wrong => by cases wrong) fun _ wrong => by cases wrong
      · cases stepped
  | accept input =>
      simp only [serveStep] at stepped
      split at stepped
      · split at stepped
        · cases stepped
          exact looped _ rfl (fun _ _ wrong => by cases wrong) fun _ wrong => by cases wrong
        · cases stepped
          exact looped .testing rfl (fun _ _ wrong => by cases wrong) fun _ wrong => by cases wrong
      · cases stepped
  | snapshot =>
      simp only [serveStep] at stepped
      split at stepped
      · cases stepped
        refine looped _ rfl (fun _ _ read => ?_) fun _ wrong => by cases wrong
        cases read
        exact bounded.options
      · cases stepped
  | count =>
      simp only [serveStep] at stepped
      split at stepped
      · next input maxConnections here =>
          split at stepped
          · cases stepped
            exact looped .testing rfl (fun _ _ wrong => by cases wrong) fun _ wrong => by cases wrong
          · next room =>
              cases stepped
              have below := bounded.limited input maxConnections here
              exact looped _ rfl (fun _ _ wrong => by cases wrong) fun _ _ => by omega
      · cases stepped
  | register =>
      simp only [serveStep] at stepped
      split at stepped
      · next input here =>
          cases stepped
          have room := bounded.admitted input here
          refine ⟨kept, bounded.options, ?_, (fun _ _ wrong => by cases wrong), fun _ wrong => by cases wrong⟩
          simp only [register, setSessions, List.length_append, List.length_singleton]
          omega
      · cases stepped
  | thread sessionId input =>
      simp only [serveStep] at stepped
      split at stepped
      · cases stepped
      · next own =>
          obtain ⟨connection, present, stepped⟩ := Option.bind_eq_some_iff.mp stepped
          obtain ⟨session, moved, rfl⟩ := Option.map_eq_some_iff.mp stepped
          have own : input.isReload = false := by simpa using own
          have same : session.server.sessions.length = serving.server.sessions.length := by
            rw [step_redraws own (bounded.kept.shown present) moved, List.length_map]
            rfl
          refine ⟨kept, sessionStep_limit own limited bounded.options moved, ?_, bounded.limited, fun input here => ?_⟩
          · exact same.le.trans bounded.sessions
          · exact same.trans_lt (bounded.admitted input here)
  | hangUp sessionId =>
      simp only [serveStep] at stepped
      obtain ⟨connection, present, stepped⟩ := Option.bind_eq_some_iff.mp stepped
      split at stepped
      · cases stepped
        exact ⟨kept, bounded.options, bounded.sessions, bounded.limited, bounded.admitted⟩
      · cases stepped
        exact ⟨kept, bounded.options, bounded.sessions, bounded.limited, bounded.admitted⟩
      · cases stepped
  | leave sessionId =>
      simp only [serveStep] at stepped
      obtain ⟨connection, present, stepped⟩ := Option.bind_eq_some_iff.mp stepped
      split at stepped
      · cases stepped
        have fewer : (serving.leave sessionId connection).server.sessions.length ≤ serving.server.sessions.length :=
          List.length_filter_le _ _
        exact ⟨kept, bounded.options, fewer.trans bounded.sessions, bounded.limited,
          fun input here => fewer.trans_lt (bounded.admitted input here)⟩
      · cases stepped

end Serving

/-- The connections the accept loop may still admit without looking at its condition again. -/
def AcceptPhase.pending : AcceptPhase → Nat
  | .testing | .finished => 0
  | .accepting | .accepted _ | .limited _ _ | .admitted _ => 1

namespace Serving

/-- The server was asked to stop, and no session gets a number above the last. -/
structure Closing (last : Nat) (serving : Serving) : Prop where
  stopping : serving.stopping = true
  numbers : serving.nextSessionId + serving.accepting.pending ≤ last

theorem sessionStep_stays {input : Input} (own : input.isReload = false)
    (requested : session.server.shutdownRequested = true)
    (stepped : sessionStep env sessionId session input = some after) : after.server.shutdownRequested = true := by
  rcases sessionStep_cases own stepped with settles | ⟨reached, source, commandLine, settles, -, rfl⟩
  · obtain ⟨sessions, same⟩ := settles.server
    rw [same]
    exact requested
  · obtain ⟨sessions, same⟩ := settles.server
    have before : reached.server.shutdownRequested = true := by
      rw [same]
      exact requested
    change (executeCommand env source reached.identity commandLine reached.server).state.shutdownRequested = true
    rcases executeCommand_cases env source reached.identity commandLine reached.server with still | ⟨stopped, -⟩ | ⟨loaded, -⟩
    · rw [still]
      exact before
    · rw [stopped]
    · exact (reloadRemoteState_sessions loaded).2.trans before

theorem serveStep_closing {last : Nat} {step : ServeStep} (closing : serving.Closing last)
    (stepped : serveStep env serving step = some next) : next.Closing last := by
  have numbers := closing.numbers
  have stopping := closing.stopping
  cases step with
  | signal =>
      cases stepped
      exact ⟨Bool.or_true _, numbers⟩
  | test =>
      simp only [serveStep] at stepped
      split at stepped
      · next here =>
          rw [if_pos stopping] at stepped
          cases stepped
          rw [here] at numbers
          exact ⟨Bool.true_or _, numbers⟩
      · cases stepped
  | accept input =>
      simp only [serveStep] at stepped
      split at stepped
      · next here =>
          rw [here] at numbers
          split at stepped
          · cases stepped
            exact ⟨stopping, numbers⟩
          · cases stepped
            exact ⟨stopping, (Nat.le_succ _).trans numbers⟩
      · cases stepped
  | snapshot =>
      simp only [serveStep] at stepped
      split at stepped
      · next here =>
          rw [here] at numbers
          cases stepped
          exact ⟨stopping, numbers⟩
      · cases stepped
  | count =>
      simp only [serveStep] at stepped
      split at stepped
      · next here =>
          rw [here] at numbers
          split at stepped
          · cases stepped
            exact ⟨stopping, (Nat.le_succ _).trans numbers⟩
          · cases stepped
            exact ⟨stopping, numbers⟩
      · cases stepped
  | register =>
      simp only [serveStep] at stepped
      split at stepped
      · next here =>
          rw [here] at numbers
          cases stepped
          exact ⟨stopping, numbers⟩
      · cases stepped
  | thread sessionId input =>
      simp only [serveStep] at stepped
      split at stepped
      · cases stepped
      · next own =>
          obtain ⟨connection, present, stepped⟩ := Option.bind_eq_some_iff.mp stepped
          obtain ⟨session, moved, rfl⟩ := Option.map_eq_some_iff.mp stepped
          refine ⟨?_, numbers⟩
          rw [Serving.stopping, Bool.or_eq_true] at stopping ⊢
          exact stopping.imp (fun requested => sessionStep_stays (by simpa using own) requested moved) id
  | hangUp sessionId =>
      simp only [serveStep] at stepped
      obtain ⟨connection, present, stepped⟩ := Option.bind_eq_some_iff.mp stepped
      split at stepped
      · cases stepped
        exact ⟨stopping, numbers⟩
      · cases stepped
        exact ⟨stopping, numbers⟩
      · cases stepped
  | leave sessionId =>
      simp only [serveStep] at stepped
      obtain ⟨connection, present, stepped⟩ := Option.bind_eq_some_iff.mp stepped
      split at stepped
      · cases stepped
        exact ⟨stopping, numbers⟩
      · cases stepped

theorem runEvents_kept {steps : List ServeStep} (kept : serving.Kept)
    (run : runEvents (serveStep env) serving steps = some next) : next.Kept :=
  runEvents_invariant (fun _ _ _ holds stepped => serveStep_kept holds stepped) kept run

end Serving

/-! ## Two clients of a guarded server -/

/-- The accept loop admits a client that sends the text. -/
def admitting (text : String) : List ServeStep := [.test, .accept (some (bytes text)), .snapshot, .count, .register]

/-- An administrator and a client without credentials. -/
def sharedSteps : List ServeStep :=
  admitting "auth token secret\nshutdown\n" ++ [.thread 1 .read] ++ admitting "shutdown\n" ++
    [.thread 2 .read, .thread 1 .authenticate, .thread 2 .authenticate]

/-- The administrator stops the server while a third connection waits. -/
def stoppingSteps : List ServeStep :=
  sharedSteps ++
    [.test, .accept (some []), .thread 1 .read, .thread 1 .authenticate, .thread 1 (.execute (.error [])), .snapshot,
     .count, .register, .leave 1, .test]

def guardedServing : Serving := .start guardedServer.config guardedServer.options guardedServer.users .none

theorem guardedServing_stops :
    ∃ final, runEvents (serveStep listingEnv) guardedServing stoppingSteps = some final ∧
      final.server.shutdownRequested = true ∧ final.signalled = false ∧ final.nextSessionId = 4 := by
  have reached : (runEvents (serveStep listingEnv) guardedServing stoppingSteps).any (fun final =>
      final.server.shutdownRequested && !final.signalled && final.nextSessionId == 4) = true := by decide +kernel
  obtain ⟨final, run, holds⟩ := (Option.any_eq_true _ _).mp reached
  simp only [Bool.and_eq_true, Bool.not_eq_true', beq_iff_eq] at holds
  exact ⟨final, run, holds.1.1, holds.1.2, holds.2⟩

/-! ## Every order of steps -/

section Runs

variable (env : ServerEnv) (config : Config.ReqPackConfig) (options : ServeRuntimeOptions) (users : List RemoteUser)
  (configOverrides : Config.ReqPackConfigOverrides) (steps : List ServeStep) (final : Serving)

/-- Whatever the order of steps, the table lists each session that has a thread once and
nothing else, under the identity the session acts under; and one it calls an administrator
presented the credentials of a user who is one. -/
theorem sessions_truthful
    (run : runEvents (serveStep env) (Serving.start config options users configOverrides) steps = some final) :
    (final.server.sessions.map RemoteSessionInfo.id).Nodup ∧
      (∀ sessionId connection, final.connections sessionId = some connection →
        connection.row sessionId ∈ final.server.sessions) ∧
      ∀ info ∈ final.server.sessions, ∃ connection, final.connections info.id = some connection ∧
        info = connection.row info.id ∧
          (info.isAdmin = true → ∃ snapshot credentials user, Event.presented snapshot credentials ∈ connection.log ∧
            user ∈ snapshot.users ∧ user.Owns credentials ∧ user.isAdmin = true ∧ info.userId = user.id) := by
  have kept := Serving.runEvents_kept (Serving.start_kept config options users configOverrides) run
  refine ⟨kept.distinct, fun sessionId connection present => ?_, fun info member => ?_⟩
  · obtain ⟨info, member, rfl⟩ := kept.running sessionId connection present
    obtain ⟨listed, found, row⟩ := kept.listed info member
    rw [present] at found
    cases found
    exact row ▸ member
  · obtain ⟨connection, present, row⟩ := kept.listed info member
    refine ⟨connection, present, row, fun admin => ?_⟩
    have trusted := kept.trusted info.id connection present
    have same : info.isAdmin = connection.identity.isAdmin := congrArg RemoteSessionInfo.isAdmin row
    have named : info.userId = connection.identity.userId := congrArg RemoteSessionInfo.userId row
    rw [same] at admin
    rw [named]
    cases known : connection.identity.authenticated with
    | false =>
        rw [trusted.unknown known] at admin
        cases admin
    | true => exact Serving.granted_administrator ((trusted.authorized final.server).identity known) admin

theorem sessions_truthful_shared :
    ∃ final info connection, runEvents (serveStep listingEnv) guardedServing sharedSteps = some final ∧
      info ∈ final.server.sessions ∧ info.isAdmin = true ∧ final.connections info.id = some connection ∧
        ∃ snapshot credentials, Event.presented snapshot credentials ∈ connection.log := by
  have reached : (runEvents (serveStep listingEnv) guardedServing sharedSteps).any (fun final =>
      final.server.sessions.any (·.isAdmin)) = true := by decide +kernel
  obtain ⟨final, run, listed⟩ := (Option.any_eq_true _ _).mp reached
  obtain ⟨info, member, admin⟩ := List.any_eq_true.mp listed
  obtain ⟨connection, present, -, shown⟩ := (sessions_truthful listingEnv _ _ _ _ _ final run).2.2 info member
  obtain ⟨snapshot, credentials, -, presented, -⟩ := shown admin
  exact ⟨final, info, connection, run, member, admin, present, snapshot, credentials, presented⟩

/-- Whatever the order of steps, there are never more sessions than the highest limit that
was in force; and once the server is asked to stop, the accept loop admits no connection
but the one it is at. -/
theorem accept_loop_admits
    (run : runEvents (serveStep env) (Serving.start config options users configOverrides) steps = some final) :
    (∀ bound : Nat, options.maxConnections ≤ bound → (∀ step ∈ steps, Serving.limitedBy bound step) →
      final.server.sessions.length ≤ bound) ∧
    ∀ earlier later middle, steps = earlier ++ later →
      runEvents (serveStep env) (Serving.start config options users configOverrides) earlier = some middle →
        middle.stopping = true → final.nextSessionId ≤ middle.nextSessionId + middle.accepting.pending := by
  refine ⟨fun bound below limited => ?_, fun earlier later middle split before stopping => ?_⟩
  · have initially : (Serving.start config options users configOverrides).Bounded bound :=
      ⟨Serving.start_kept config options users configOverrides, below, Nat.zero_le _, (fun _ _ wrong => by cases wrong),
        fun _ wrong => by cases wrong⟩
    have bounded : final.Bounded bound :=
      runEvents_invariant_of (fun _ _ _ limited holds stepped => Serving.serveStep_bounded holds limited stepped)
        limited initially run
    exact bounded.sessions
  · subst split
    rw [runEvents_append before] at run
    have closing : final.Closing (middle.nextSessionId + middle.accepting.pending) :=
      runEvents_invariant (fun _ _ _ holds stepped => Serving.serveStep_closing holds stepped)
        (⟨stopping, Nat.le_refl _⟩ : middle.Closing _) run
    exact (Nat.le_add_right _ _).trans closing.numbers

theorem accept_loop_admits_pending :
    ∃ final, runEvents (serveStep listingEnv) guardedServing stoppingSteps = some final ∧ final.nextSessionId = 4 ∧
      final.server.sessions.length ≤ 16 := by
  obtain ⟨final, run, -, -, numbers⟩ := guardedServing_stops
  refine ⟨final, run, numbers, (accept_loop_admits listingEnv _ _ _ _ _ final run).1 16 (by decide) ?_⟩
  simp [stoppingSteps, sharedSteps, admitting, Serving.limitedBy, Input.source]

end Runs

end ReqPack.Remote
