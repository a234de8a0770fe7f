import ReqPack.Registry.Operations

/-! # The life of plugin instances

On each instance successful starts and shutdowns alternate, and an instance is shut down
before it goes, in exactly those runs in which no call takes the state of an active plugin
away from it.
-/

namespace ReqPack.Registry

open ReqPack.Data ReqPack.Core

/-! ## What the events say of an instance -/

section Events

variable {events more : List RegistryEvent} {event : RegistryEvent} {held other : Nat}

def stepLive (held : Nat) (live : Bool) : RegistryEvent → Bool
  | .initialised other true => if other = held then true else live
  | .shutDown other => if other = held then false else live
  | _ => live

/-- The instance was started and not shut down since. -/
def isLive (events : List RegistryEvent) (held : Nat) : Bool := events.foldl (stepLive held) false

theorem isLive_append : isLive (events ++ [event]) held = stepLive held (isLive events held) event := by
  rw [isLive, List.foldl_append]
  rfl

/-- An event that may follow these. -/
def Allowed (events : List RegistryEvent) : RegistryEvent → Prop
  | .initialised held true => isLive events held = false
  | .shutDown held => isLive events held = true
  | .erased held _ => isLive events held = false
  | _ => True

/-- Successful starts and shutdowns alternate, beginning with a start, and only instances
that were shut down, or never started, go. -/
def Disciplined (events : List RegistryEvent) : Prop :=
  ∀ front event back, events = front ++ event :: back → Allowed front event

theorem Disciplined.append (disciplined : Disciplined events) (allowed : Allowed events event) :
    Disciplined (events ++ [event]) := by
  intro front last back split
  rcases List.eq_nil_or_concat back with rfl | ⟨back, final, rfl⟩
  · obtain ⟨rfl, same⟩ := List.append_inj' split rfl
    obtain rfl := List.head_eq_of_cons_eq same
    exact allowed
  · rw [List.concat_eq_append, ← List.cons_append, ← List.append_assoc] at split
    obtain ⟨earlier, -⟩ := List.append_inj' split rfl
    exact disciplined front last back earlier

theorem Disciplined.front (disciplined : Disciplined (events ++ more)) : Disciplined events := by
  intro front event back split
  exact disciplined front event (back ++ more) (by simp [split])

theorem Disciplined.last (disciplined : Disciplined (events ++ [event])) : Allowed events event :=
  disciplined events event [] rfl

end Events

namespace PluginTable

variable {δ : Type} {env : RuntimeEnv δ} {table after : PluginTable δ} {name other : String} {held : Nat}

theorem events_eraseInstance (found : table.plugins.get name = some held) :
    (table.eraseInstance name).events = table.events ++ [.erased held (table.stateOf name == .active)] := by
  rw [eraseInstance, found]
  rfl

theorem eraseInstance_absent (missing : table.plugins.get name = none) : table.eraseInstance name = table := by
  rw [eraseInstance, missing]

@[simp] theorem isLive_eraseInstance : isLive (table.eraseInstance name).events held = isLive table.events held := by
  cases found : table.plugins.get name with
  | none => rw [eraseInstance_absent found]
  | some erased =>
      rw [events_eraseInstance found, isLive_append]
      rfl

theorem isLive_log (event : RegistryEvent) :
    isLive (table.log event).events held = stepLive held (isLive table.events held) event :=
  isLive_append

/-! ## The invariant -/

/-- The state of a name tells whether its instance is live, and a live instance has a name. -/
structure Tended (table : PluginTable δ) : Prop where
  kept : Kept table
  live : ∀ name held, table.plugins.get name = some held →
    (table.stateOf name = .active ↔ isLive table.events held = true)
  named : ∀ held, isLive table.events held = true → ∃ name, table.plugins.get name = some held
  disciplined : Disciplined table.events

/-- The instance of one name is not live, and the others are tended. -/
structure Resting (table : PluginTable δ) (name : String) : Prop where
  kept : Kept table
  others : ∀ other held, other ≠ name → table.plugins.get other = some held →
    (table.stateOf other = .active ↔ isLive table.events held = true)
  down : ∀ held, table.plugins.get name = some held → isLive table.events held = false
  named : ∀ held, isLive table.events held = true → ∃ name, table.plugins.get name = some held
  disciplined : Disciplined table.events

theorem Tended.resting (tended : Tended table) (inactive : table.stateOf name ≠ .active) : Resting table name where
  kept := tended.kept
  others := fun other held _ => tended.live other held
  down := by
    intro held found
    rw [← Bool.not_eq_true, ← tended.live name held found]
    exact inactive
  named := tended.named
  disciplined := tended.disciplined

theorem Tended.shutDown (tended : Tended table) (found : table.plugins.get name = some held)
    (active : table.stateOf name = .active) : Resting (table.log (.shutDown held)) name where
  kept := tended.kept.log _
  others := by
    intro other kept apart present
    have different : held ≠ kept := fun same => apart (tended.kept.unique other name kept present (same ▸ found))
    rw [isLive_log]
    simp only [stepLive, if_neg different]
    exact tended.live other kept present
  down := by
    intro kept present
    rw [isLive_log]
    have same : held = kept := Option.some.inj (found.symm.trans present)
    simp only [stepLive, if_pos same]
  named := by
    intro kept live
    rw [isLive_log] at live
    simp only [stepLive] at live
    split at live
    · cases live
    · exact tended.named kept live
  disciplined := tended.disciplined.append ((tended.live name held found).mp active)

theorem Resting.setState (resting : Resting table name) {state : PluginState} (idle : state ≠ .active) :
    Tended (table.setState name state) where
  kept := resting.kept.setState fun _ => idle
  live := by
    intro other held found
    rw [stateOf_setState]
    by_cases here : other = name
    · rw [if_pos here]
      refine iff_of_false idle ?_
      rw [Bool.not_eq_true]
      exact resting.down held (here ▸ found)
    · rw [if_neg here]
      exact resting.others other held here found
  named := resting.named
  disciplined := resting.disciplined

/-- The instance goes, with whatever else changes about its name. -/
theorem Resting.erase (resting : Resting table name) (kept : Kept after)
    (plugins : after.plugins = (table.eraseInstance name).plugins)
    (states : ∀ other, other ≠ name → after.stateOf other = table.stateOf other)
    (events : after.events = (table.eraseInstance name).events) : Tended after where
  kept := kept
  live := by
    intro other held present
    rw [plugins, get_eraseInstance] at present
    by_cases here : other = name
    · rw [if_pos here] at present
      cases present
    · rw [if_neg here] at present
      rw [states other here, events, isLive_eraseInstance]
      exact resting.others other held here present
  named := by
    intro held live
    rw [events, isLive_eraseInstance] at live
    obtain ⟨other, present⟩ := resting.named held live
    refine ⟨other, ?_⟩
    have apart : other ≠ name := by
      rintro rfl
      rw [resting.down held present] at live
      cases live
    rw [plugins, get_eraseInstance, if_neg apart, present]
  disciplined := by
    rw [events]
    cases found : table.plugins.get name with
    | none =>
        rw [eraseInstance_absent found]
        exact resting.disciplined
    | some held =>
        rw [events_eraseInstance found]
        exact resting.disciplined.append (resting.down held found)

theorem Resting.forget (resting : Resting table name) : Tended (table.forget name) := by
  refine resting.erase (resting.kept.forget name) rfl (fun other apart => ?_) rfl
  rw [stateOf_forget, if_neg apart]

theorem Tended.started (tended : Tended table) (found : table.plugins.get name = some held)
    (inactive : table.stateOf name ≠ .active) : Tended ((table.log (.initialised held true)).setState name .active) where
  kept := by
    refine (tended.kept.log _).setState fun missing => ?_
    rw [show (table.log (.initialised held true)).plugins = table.plugins from rfl, found] at missing
    cases missing
  live := by
    intro other kept present
    rw [stateOf_setState, show ((table.log (.initialised held true)).setState name .active).events =
      (table.log (.initialised held true)).events from rfl, isLive_log]
    by_cases here : other = name
    · have same : held = kept := Option.some.inj (found.symm.trans (here ▸ present))
      simp only [if_pos here, stepLive, if_pos same]
    · have different : held ≠ kept := fun same => here (tended.kept.unique other name kept present (same ▸ found))
      simp only [if_neg here, stepLive, if_neg different]
      exact tended.live other kept present
  named := by
    intro kept live
    rw [show ((table.log (.initialised held true)).setState name .active).events =
      (table.log (.initialised held true)).events from rfl, isLive_log] at live
    simp only [stepLive] at live
    split at live
    · next same => exact ⟨name, same ▸ found⟩
    · exact tended.named kept live
  disciplined := tended.disciplined.append ((tended.resting inactive).down held found)

/-- An event that neither starts nor shuts down nor destroys an instance. -/
theorem Tended.log (tended : Tended table) {event : RegistryEvent}
    (neutral : ∀ held live, stepLive held live event = live) (allowed : Allowed table.events event) :
    Tended (table.log event) := by
  have same : ∀ held, isLive (table.log event).events held = isLive table.events held := fun held => by
    rw [isLive_log, neutral]
  refine ⟨tended.kept.log event, ?_, ?_, tended.disciplined.append allowed⟩
  · simp only [same]
    exact tended.live
  · simp only [same]
    exact tended.named

theorem Tended.addInstance (tended : Tended table) {path : String} (missing : table.plugins.get name = none)
    (known : table.paths name = some path) : Tended (table.addInstance env name path) where
  kept := tended.kept.addInstance missing known
  live := by
    intro other kept present
    have same : isLive (table.addInstance env name path).events kept = isLive table.events kept := isLive_append
    rw [same]
    rw [get_addInstance] at present
    by_cases here : other = name
    · rw [if_pos here] at present
      obtain rfl := Option.some.inj present
      refine iff_of_false (here ▸ tended.kept.absent name missing) fun live => ?_
      obtain ⟨owner, owned⟩ := tended.named _ live
      exact Nat.lt_irrefl _ (tended.kept.fresh owner _ owned)
    · rw [if_neg here] at present
      exact tended.live other kept present
  named := by
    intro kept live
    have same : isLive (table.addInstance env name path).events kept = isLive table.events kept := isLive_append
    rw [same] at live
    obtain ⟨owner, owned⟩ := tended.named kept live
    refine ⟨owner, ?_⟩
    have apart : owner ≠ name := by
      rintro rfl
      rw [missing] at owned
      cases owned
    rw [get_addInstance, if_neg apart, owned]
  disciplined := tended.disciplined.append True.intro

theorem Tended.touchState (tended : Tended table) (name : String) : Tended (table.touchState name) := by
  refine ⟨tended.kept.setState (tended.kept.absent name), fun other held present => ?_, tended.named, tended.disciplined⟩
  rw [stateOf_touchState]
  exact tended.live other held present

theorem Tended.change (tended : Tended table) (change : Change env table after) : Tended after := by
  cases change with
  | world world => exact ⟨{ tended.kept with }, tended.live, tended.named, tended.disciplined⟩
  | found path external => exact ⟨tended.kept.found path external, tended.live, tended.named, tended.disciplined⟩
  | marked inactive idle keeps => exact (tended.resting inactive).setState idle
  | touched name => exact tended.touchState name
  | written name => exact tended.log (fun _ _ => rfl) True.intro
  | added missing known => exact tended.addInstance missing known
  | dropped inactive =>
      exact (tended.resting inactive).erase (tended.kept.eraseInstance inactive) rfl (fun _ _ => stateOf_eraseInstance) rfl
  | refused held => exact tended.log (fun _ _ => rfl) True.intro
  | started found inactive sound => exact tended.started found inactive
  | stopped found active => exact (tended.shutDown found active).setState (by simp)
  | unloaded found active => exact (tended.shutDown found active).forget
  | forgotten inactive => exact (tended.resting inactive).forget

theorem Tended.chain (tended : Tended table) (chain : Chain env table after) : Tended after := by
  induction chain with
  | refl => exact tended
  | tail _ change ih => exact ih.change change

/-! ## After a strike -/

/-- The events break the discipline already, or a live instance is marked as failed. -/
def Doomed (table : PluginTable δ) : Prop :=
  ¬ Disciplined table.events ∨
    ∃ name held, table.plugins.get name = some held ∧ table.stateOf name = .failed ∧ isLive table.events held = true

theorem Tended.strike (tended : Tended table) (strike : Strike table after) : Doomed after := by
  cases strike with
  | @failed name active =>
      cases found : table.plugins.get name with
      | none => exact absurd active (tended.kept.absent name found)
      | some held =>
          refine Or.inr ⟨name, held, found, ?_, (tended.live name held found).mp active⟩
          rw [stateOf_setState, if_pos rfl]
  | @torn name active =>
      cases found : table.plugins.get name with
      | none => exact absurd active (tended.kept.absent name found)
      | some held =>
          refine Or.inl fun disciplined => ?_
          rw [show (table.forget name).events = (table.eraseInstance name).events from rfl, events_eraseInstance found]
            at disciplined
          have down : isLive table.events held = false := disciplined.last
          rw [(tended.live name held found).mp active] at down
          cases down

theorem events_forget (table : PluginTable δ) (name : String) : ∃ more, (table.forget name).events = table.events ++ more := by
  rw [show (table.forget name).events = (table.eraseInstance name).events from rfl]
  cases found : table.plugins.get name with
  | none => exact ⟨[], by rw [eraseInstance_absent found, List.append_nil]⟩
  | some held => exact ⟨_, events_eraseInstance found⟩

theorem Change.events (change : Change env table after) : ∃ more, after.events = table.events ++ more := by
  cases change with
  | world world => exact ⟨[], (List.append_nil _).symm⟩
  | found path external => exact ⟨[], (List.append_nil _).symm⟩
  | marked inactive idle keeps => exact ⟨[], (List.append_nil _).symm⟩
  | touched name => exact ⟨[], (List.append_nil _).symm⟩
  | written name => exact ⟨_, rfl⟩
  | added missing known => exact ⟨_, rfl⟩
  | @dropped name inactive => exact events_forget table name
  | refused held => exact ⟨_, rfl⟩
  | started found inactive sound => exact ⟨_, rfl⟩
  | stopped found active => exact ⟨_, rfl⟩
  | @unloaded name held found active =>
      obtain ⟨more, same⟩ := events_forget (table.log (.shutDown held)) name
      exact ⟨.shutDown held :: more, same.trans (by simp [PluginTable.log])⟩
  | @forgotten name inactive => exact events_forget table name

/-- The instance of a name that is not the erased one stays as it is. -/
theorem doomed_eraseInstance (found : table.plugins.get name = some held) (live : isLive table.events held = true)
    (same : other = name → after.events = (table.eraseInstance other).events)
    (rest : other ≠ name → Doomed after) : Doomed after := by
  by_cases here : other = name
  · refine Or.inl fun disciplined => ?_
    rw [same here, here, events_eraseInstance found] at disciplined
    have down : isLive table.events held = false := disciplined.last
    rw [live] at down
    cases down
  · exact rest here

theorem Doomed.change (kept : Kept table) (doomed : Doomed table) (change : Change env table after) : Doomed after := by
  rcases doomed with broken | ⟨name, held, found, failed, live⟩
  · obtain ⟨more, same⟩ := change.events
    exact Or.inl fun disciplined => broken (same ▸ disciplined).front
  · cases change with
    | world world => exact Or.inr ⟨name, held, found, failed, live⟩
    | found path external => exact Or.inr ⟨name, held, found, failed, live⟩
    | @marked other state inactive idle keeps =>
        refine Or.inr ⟨name, held, found, ?_, live⟩
        rw [stateOf_setState]
        split
        · next here => exact keeps (here ▸ failed)
        · exact failed
    | touched other => exact Or.inr ⟨name, held, found, by rw [stateOf_touchState, failed], live⟩
    | written other => exact Or.inr ⟨name, held, found, failed, isLive_append.trans live⟩
    | @added other path missing known =>
        have apart : name ≠ other := by
          rintro rfl
          rw [missing] at found
          cases found
        exact Or.inr ⟨name, held, by rw [get_addInstance, if_neg apart, found], failed, isLive_append.trans live⟩
    | @dropped other inactive =>
        refine doomed_eraseInstance found live (fun _ => rfl) fun apart => Or.inr ⟨name, held, ?_, ?_, ?_⟩
        · rw [get_eraseInstance, if_neg (Ne.symm apart), found]
        · rw [stateOf_eraseInstance, failed]
        · rw [isLive_eraseInstance, live]
    | refused other => exact Or.inr ⟨name, held, found, failed, isLive_append.trans live⟩
    | @started other begun present inactive sound =>
        have apart : name ≠ other := fun here => sound (here ▸ failed)
        refine Or.inr ⟨name, held, found, ?_, isLive_append.trans ?_⟩
        · rw [stateOf_setState, if_neg apart]
          exact failed
        · simp only [stepLive, live, ite_self]
    | @stopped other ended present active =>
        have apart : name ≠ other := by
          rintro rfl
          rw [failed] at active
          cases active
        have different : ended ≠ held := fun same => apart (kept.unique name other held found (same ▸ present))
        refine Or.inr ⟨name, held, found, ?_, isLive_append.trans ?_⟩
        · rw [stateOf_setState, if_neg apart]
          exact failed
        · simp only [stepLive, if_neg different, live]
    | @unloaded other ended present active =>
        have apart : name ≠ other := by
          rintro rfl
          rw [failed] at active
          cases active
        have different : ended ≠ held := fun same => apart (kept.unique name other held found (same ▸ present))
        refine Or.inr ⟨name, held, ?_, ?_, ?_⟩
        · rw [get_forget, if_neg apart]
          exact found
        · rw [stateOf_forget, if_neg apart]
          exact failed
        · rw [show ((table.log (.shutDown ended)).forget other).events =
            ((table.log (.shutDown ended)).eraseInstance other).events from rfl, isLive_eraseInstance, isLive_log]
          simp only [stepLive, if_neg different, live]
    | @forgotten other inactive =>
        refine doomed_eraseInstance found live (fun _ => rfl) fun apart => Or.inr ⟨name, held, ?_, ?_, ?_⟩
        · rw [get_forget, if_neg (Ne.symm apart), found]
        · rw [stateOf_forget, if_neg (Ne.symm apart), failed]
        · rw [show (table.forget other).events = (table.eraseInstance other).events from rfl, isLive_eraseInstance, live]

theorem Doomed.strike (doomed : Doomed table) (strike : Strike table after) : Doomed after := by
  rcases doomed with broken | ⟨name, held, found, failed, live⟩
  · cases strike with
    | failed active => exact Or.inl broken
    | torn active =>
        refine Or.inl fun disciplined => broken ?_
        obtain ⟨more, same⟩ := events_forget table _
        exact (same ▸ disciplined).front
  · cases strike with
    | @failed other active =>
        refine Or.inr ⟨name, held, found, ?_, live⟩
        rw [stateOf_setState, failed, ite_self]
    | @torn other active =>
        have apart : name ≠ other := by
          rintro rfl
          rw [failed] at active
          cases active
        refine Or.inr ⟨name, held, ?_, ?_, ?_⟩
        · rw [get_forget, if_neg apart, found]
        · rw [stateOf_forget, if_neg apart, failed]
        · rw [show (table.forget other).events = (table.eraseInstance other).events from rfl, isLive_eraseInstance, live]

theorem Doomed.chain (kept : Kept table) (doomed : Doomed table) (chain : Chain env table after) : Doomed after := by
  induction chain with
  | refl => exact doomed
  | tail chain change ih => exact ih.change (kept.chain chain) change

/-! ## Loading -/

theorem activate_loaded (loaded : (table.activate env name held).1 = true) :
    (table.activate env name held).2.plugins = table.plugins ∧
    (table.activate env name held).2.stateOf name = .active := by
  simp only [activate] at loaded ⊢
  split at loaded
  · cases loaded
  · next version =>
      rw [if_neg version]
      split at loaded
      · next ok =>
          rw [if_pos ok]
          exact ⟨rfl, by rw [stateOf_setState, if_pos rfl]⟩
      · cases loaded

theorem startPlugin_loaded {autoLoad : Bool} (loaded : (table.startPlugin env name autoLoad).1 = true) :
    ∃ held, (table.startPlugin env name autoLoad).2.plugins.get name = some held ∧
      (table.startPlugin env name autoLoad).2.stateOf name = .active := by
  rw [startPlugin] at loaded ⊢
  cases found : table.plugins.get name with
  | none =>
      rw [found] at loaded
      cases loaded
  | some held =>
      rw [found] at loaded
      dsimp only at loaded ⊢
      split at loaded
      · next active =>
          rw [if_pos active]
          exact ⟨held, found, active⟩
      · next inactive =>
          rw [if_neg inactive]
          split at loaded
          · cases loaded
          · next sound =>
              rw [if_neg sound]
              split at loaded
              · cases loaded
              · next configured =>
                  rw [if_neg configured]
                  obtain ⟨plugins, active⟩ := activate_loaded loaded
                  exact ⟨held, by rw [plugins]; exact found, active⟩

theorem loadPlugin_loaded (loaded : (table.loadPlugin env name).1 = true) :
    ∃ held, (table.loadPlugin env name).2.plugins.get (env.resolvePluginName table.world name) = some held ∧
      (table.loadPlugin env name).2.stateOf (env.resolvePluginName table.world name) = .active := by
  simp only [loadPlugin] at loaded ⊢
  generalize env.resolvePluginName table.world name = resolvedName at loaded ⊢
  split at loaded
  · next builtIn =>
      rw [if_pos builtIn]
      split at loaded
      · cases loaded
      · next constructed =>
          rw [if_neg constructed]
          exact startPlugin_loaded loaded
  · next external =>
      rw [if_neg external]
      split at loaded
      · cases loaded
      · next provided =>
          rw [if_neg provided]
          split at loaded
          · cases loaded
          · next constructed =>
              rw [if_neg constructed]
              exact startPlugin_loaded loaded

end PluginTable

open PluginTable

theorem initialTable_tended {δ : Type} (world : δ) : Tended (initialTable world) := by
  have dead : ∀ held, isLive (initialTable world).events held = false := fun _ => rfl
  refine ⟨initialTable_kept world, fun name held found => ?_, fun held live => ?_, ?_⟩
  · rw [dead]
    refine iff_of_false (fun active => ?_) (by simp)
    simp only [stateOf, initialTable, Function.update_apply] at active
    split at active <;> cases active
  · rw [dead] at live
    cases live
  · intro front event back split
    rcases front with _ | ⟨first, front⟩
    · obtain rfl := List.head_eq_of_cons_eq split
      exact True.intro
    · have empty := List.tail_eq_of_cons_eq split
      simp at empty

section Runs

variable {δ : Type} {env : RuntimeEnv δ} {table : PluginTable δ} {calls : List PluginCall}

/-- No call of the run strikes. -/
def Unstruck (env : RuntimeEnv δ) (table : PluginTable δ) (calls : List PluginCall) : Prop :=
  ∀ front call back, calls = front ++ call :: back → ¬ Strikes env (table.runCalls env front) call

/-- The discipline is kept to the end, and every plugin that is said to be loaded has a
live instance. -/
structure LifecycleKept (env : RuntimeEnv δ) (table : PluginTable δ) (calls : List PluginCall) : Prop where
  disciplined : Disciplined ((table.runCalls env calls).destroy env).events
  loaded : ∀ front name back, calls = front ++ .loadPlugin name :: back →
    let before := table.runCalls env front
    let loaded := before.loadPlugin env name
    loaded.1 = true → ∃ held, loaded.2.plugins.get (env.resolvePluginName before.world name) = some held ∧
      isLive loaded.2.events held = true

theorem runCalls_append (front back : List PluginCall) :
    table.runCalls env (front ++ back) = (table.runCalls env front).runCalls env back := List.foldl_append ..

theorem Unstruck.front {front back : List PluginCall} (unstruck : Unstruck env table (front ++ back)) :
    Unstruck env table front := by
  intro first call rest split
  exact unstruck first call (rest ++ back) (by simp [split])

theorem Unstruck.tended (tended : Tended table) (unstruck : Unstruck env table calls) :
    Tended (table.runCalls env calls) := by
  induction calls using List.reverseRecOn with
  | nil => exact tended
  | append_singleton calls call ih =>
      rw [runCalls_append]
      have before := ih unstruck.front
      exact before.chain (call_chain before.kept (unstruck calls call [] rfl))

/-- Once a call strikes, the run is doomed. -/
theorem doomed_of_strike (tended : Tended table) (struck : ¬ Unstruck env table calls) :
    Doomed (table.runCalls env calls) := by
  induction calls using List.reverseRecOn with
  | nil =>
      refine absurd (fun front call back split => ?_) struck
      simp at split
  | append_singleton calls call ih =>
      rw [runCalls_append]
      have kept : Kept (table.runCalls env calls) := tended.kept.runCalls calls
      by_cases earlier : Unstruck env table calls
      · have before := earlier.tended tended
        by_cases strikes : Strikes env (table.runCalls env calls) call
        · obtain ⟨ready, struck, calm, strike, rest⟩ := call_strike kept strikes
          have steady := before.chain calm
          exact (steady.strike strike).chain (steady.kept.strike strike) rest
        · refine absurd (fun front last back split => ?_) struck
          rcases List.eq_nil_or_concat back with rfl | ⟨back, final, rfl⟩
          · obtain ⟨rfl, same⟩ := List.append_inj' split rfl
            obtain rfl := List.head_eq_of_cons_eq same
            exact strikes
          · rw [List.concat_eq_append, ← List.cons_append, ← List.append_assoc] at split
            exact earlier front last back (List.append_inj' split rfl).1
      · have doomed := ih earlier
        by_cases strikes : Strikes env (table.runCalls env calls) call
        · obtain ⟨ready, struck, calm, strike, rest⟩ := call_strike kept strikes
          exact ((doomed.chain kept calm).strike strike).chain ((kept.chain calm).strike strike) rest
        · exact doomed.chain kept (call_chain kept strikes)

/-- The discipline is kept in exactly the runs without strikes. -/
theorem lifecycle_kept_iff {δ : Type} (env : RuntimeEnv δ) (configured : env.shutDownPluginsOnExit = true) (world : δ)
    (calls : List PluginCall) :
    LifecycleKept env (initialTable world) calls ↔ Unstruck env (initialTable world) calls := by
  have tended := initialTable_tended world
  have kept : Kept ((initialTable world).runCalls env calls) := tended.kept.runCalls calls
  constructor
  · intro lifecycle
    by_contra struck
    rcases (doomed_of_strike tended struck).chain kept (destroy_chain kept configured) with broken | ⟨name, held, found, -⟩
    · exact broken lifecycle.disciplined
    · rw [destroy_get kept configured] at found
      cases found
  · intro unstruck
    refine ⟨((unstruck.tended tended).chain (destroy_chain kept configured)).disciplined, ?_⟩
    rintro front name back rfl before loaded success
    have tendedBefore : Tended before := unstruck.front.tended tended
    obtain ⟨held, found, active⟩ := loadPlugin_loaded success
    exact ⟨held, found, ((tendedBefore.chain (loadPlugin_chain tendedBefore.kept name)).live _ held found).mp active⟩

end Runs

def aptRecord : RegistryRecord :=
  { name := "apt", source := "https://example.org/apt.lua", script := "return {}" }

/-- A registry with one plugin, whose record has a script. -/
def aptRuntime : RuntimeEnv Unit where
  resolvePluginName _ name := name
  resolveRecord _ name := if name = "apt" then some aptRecord else none
  refreshRecord _ name _ := (if name = "apt" then some aptRecord else none, ())
  registryEnv _ :=
    { sha256Hex := fun text => text
      bundlePayload := fun _ _ => none
      resolveBundlePath := fun _ _ => none
      fetchPluginPayload := fun _ _ => none }
  writeBundle _ _ := some ()
  probePluginDirectory _ name := if name = "apt" then some ("apt", "plugins/apt/run.lua") else none
  probeWorkspace _ _ := none
  scanPlugins _ _ := []
  construct _ _ _ := ()
  runtimeMetadataMatchesTrustRecord _ _ _ := true
  interfaceVersionMatches _ _ := true
  init _ _ := (true, ())
  shutdown _ _ := ()

theorem lifecycle_kept_iff_apt : LifecycleKept aptRuntime (initialTable ()) [.loadPlugin "apt", .unloadPlugin "apt"] := by
  refine (lifecycle_kept_iff aptRuntime rfl () _).mpr fun front call back split => ?_
  have member : call ∈ [PluginCall.loadPlugin "apt", .unloadPlugin "apt"] := by simp [split]
  rcases List.mem_cons.mp member with rfl | rest
  · exact id
  · rw [List.mem_singleton.mp rest]
    exact id

theorem aptRuntime_events :
    (((initialTable ()).runCalls aptRuntime [.loadPlugin "apt", .refreshPlugin "apt" true]).destroy aptRuntime).events =
      [.constructed 0, .materialized "apt", .constructed 1, .initialised 1 true, .materialized "apt"] ++
        .erased 1 true :: [.erased 0 false] := by
  decide +kernel

/-- The refresh destroys the plugin that was just loaded, and nothing shuts it down. -/
theorem refreshed_plugin_not_shut_down :
    ¬ ∀ (δ : Type) (env : RuntimeEnv δ) (world : δ) (calls : List PluginCall), env.shutDownPluginsOnExit = true →
        LifecycleKept env (initialTable world) calls := by
  intro claimed
  have lifecycle := claimed Unit aptRuntime () [.loadPlugin "apt", .refreshPlugin "apt" true] rfl
  have down := lifecycle.disciplined _ _ _ aptRuntime_events
  revert down
  simp [Allowed, isLive, stepLive]

end ReqPack.Registry
