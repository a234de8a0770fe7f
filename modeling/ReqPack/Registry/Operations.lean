import ReqPack.Registry.Instances

/-! # The registry operations as chains of changes -/

namespace ReqPack.Registry

open ReqPack.Data ReqPack.Core

namespace PluginTable

variable {δ : Type} {env : RuntimeEnv δ} {table after : PluginTable δ} {name other : String} {held : Nat}

theorem Chain.markFailed (inactive : table.stateOf name ≠ .active) : Chain env table (table.setState name .failed) :=
  (Change.marked table inactive (by simp) fun _ => rfl).chain

/-- Only the built-in plugin is active without a path. -/
theorem Kept.pathless (kept : Kept table) (external : name ≠ builtInRqpPluginId) (unknown : table.paths name = none) :
    table.stateOf name ≠ .active := by
  cases found : table.plugins.get name with
  | none => exact kept.absent name found
  | some held =>
      rcases kept.pathed name held found with builtIn | known
      · exact absurd builtIn external
      · rw [unknown] at known
        cases known

/-! ## Discovery -/

theorem registerProbe_chain (table : PluginTable δ) (found : String × String) :
    Chain env table (table.registerProbe found) := by
  rw [registerProbe]
  by_cases builtIn : found.1 = builtInRqpPluginId
  · rw [if_pos builtIn]
    exact Chain.refl table
  · rw [if_neg builtIn]
    have located : Chain env table { table with paths := Function.update table.paths found.1 (some found.2) } :=
      (Change.found table found.2 builtIn).chain
    dsimp only
    split
    · next unknown =>
        refine located.trans (Change.marked _ ?_ (by simp) fun failed => ?_).chain
        · rw [unknown]
          simp
        · rw [unknown] at failed
          cases failed
    · exact located

theorem discoverPlugin_chain (table : PluginTable δ) (pluginId : String) :
    Chain env table (table.discoverPlugin env pluginId) := by
  have probed : ∀ (table : PluginTable δ) (found : Option (String × String)),
      Chain env table (found.elim table table.registerProbe) := by
    intro table found
    cases found with
    | none => exact Chain.refl table
    | some found => exact registerProbe_chain table found
  rw [discoverPlugin]
  split
  · exact probed table _
  · exact (probed table _).trans (probed _ _)

/-- A loop whose steps are chains is one. -/
theorem foldl_chain {ι : Type} {step : PluginTable δ → ι → PluginTable δ}
    (single : ∀ table item, Chain env table (step table item)) (items : List ι) (table : PluginTable δ) :
    Chain env table (items.foldl step table) := by
  induction items generalizing table with
  | nil => exact Chain.refl table
  | cons item items ih => exact (single table item).trans (ih (step table item))

theorem ensurePluginsDiscovered_chain (table : PluginTable δ) (pluginIds : List String) :
    Chain env table (table.ensurePluginsDiscovered env pluginIds) :=
  foldl_chain discoverPlugin_chain _ table

theorem scanDirectory_chain (table : PluginTable δ) (path : String) : Chain env table (table.scanDirectory env path) :=
  foldl_chain registerProbe_chain _ table

/-! ## Materialising and constructing -/

theorem materialize_chain (table : PluginTable δ) (record : RegistryRecord) :
    Chain env table (table.materialize env record) := by
  rw [materialize]
  split
  · exact Chain.refl table
  · split
    · exact Chain.refl table
    · split
      · exact Chain.refl table
      · exact (Change.world table _).chain.trans (Change.written _ _).chain

@[simp] theorem stateOf_materialize (record : RegistryRecord) :
    (table.materialize env record).stateOf name = table.stateOf name := by
  rw [materialize]
  split
  · rfl
  · split
    · rfl
    · split <;> rfl

theorem ensurePluginConstructed_chain (kept : Kept table) (name : String) :
    Chain env table (table.ensurePluginConstructed env name).2 := by
  simp only [ensurePluginConstructed]
  generalize env.resolvePluginName table.world name = resolvedName
  by_cases present : (table.plugins.get resolvedName).isSome = true
  · rw [if_pos present]
    exact Chain.refl table
  · rw [if_neg present]
    have missing : table.plugins.get resolvedName = none := by simpa using present
    cases known : table.paths resolvedName with
    | none => exact Chain.refl table
    | some path =>
        have added : Chain env table (table.addInstance env resolvedName path) :=
          (Change.added table missing known).chain
        have inactive : (table.addInstance env resolvedName path).stateOf resolvedName ≠ .active :=
          kept.absent resolvedName missing
        dsimp only
        split
        · refine (added.trans (Change.dropped _ inactive).chain).trans (Chain.markFailed ?_)
          rw [stateOf_eraseInstance]
          exact inactive
        · split
          · next unmarked =>
              refine added.trans (Change.marked _ inactive (by simp) fun failed => ?_).chain
              rw [stateOf, Option.isNone_iff_eq_none.mp unmarked] at failed
              cases failed
          · exact added

/-- The record of a plugin passes the checks before it is written. -/
def RecordUsable (env : RuntimeEnv δ) (world : δ) (name : String) (record : RegistryRecord) : Prop :=
  passesTrust env world record = true ∧
    ∃ current, (currentRecord env world name record).1 = some current ∧
      matchesExpectedHashes (env.registryEnv (currentRecord env world name record).2) current = true

/-- A record that passes is written, and for one that does not the plugin is marked. -/
theorem materializeTrusted_cases (table : PluginTable δ) (name : String) (record : RegistryRecord) :
    (RecordUsable env table.world name record ∧
      ∃ current, (currentRecord env table.world name record).1 = some current ∧
        table.materializeTrusted env name record =
          (true, { table with world := (currentRecord env table.world name record).2 }.materialize env current)) ∨
    (¬ RecordUsable env table.world name record ∧
      ∃ world, table.materializeTrusted env name record = (false, { table with world := world }.setState name .failed)) := by
  rw [materializeTrusted]
  by_cases trusted : passesTrust env table.world record = true
  · rw [trusted]
    cases fetched : (currentRecord env table.world name record).1 with
    | none =>
        refine Or.inr ⟨?_, (currentRecord env table.world name record).2, by simp [fetched]⟩
        rintro ⟨-, current, found, -⟩
        rw [fetched] at found
        cases found
    | some current =>
        by_cases hashed : matchesExpectedHashes (env.registryEnv (currentRecord env table.world name record).2) current = true
        · exact Or.inl ⟨⟨trusted, current, fetched, hashed⟩, current, rfl, by simp [fetched, hashed]⟩
        · refine Or.inr ⟨?_, (currentRecord env table.world name record).2, by simp [fetched, hashed]⟩
          rintro ⟨-, same, found, good⟩
          rw [fetched] at found
          rw [← Option.some.inj found] at good
          exact hashed good
  · refine Or.inr ⟨fun usable => trusted usable.1, table.world, by simp [trusted]⟩

theorem materializeTrusted_chain {record : RegistryRecord}
    (safe : table.stateOf name = .active → RecordUsable env table.world name record) :
    Chain env table (table.materializeTrusted env name record).2 := by
  rcases materializeTrusted_cases table name record with ⟨-, current, -, result⟩ | ⟨unusable, world, result⟩
  · rw [result]
    exact (Change.world table _).chain.trans (materialize_chain _ current)
  · rw [result]
    exact (Change.world table world).chain.trans (Chain.markFailed (mt safe unusable))

/-! ## Loading -/

theorem activate_chain (found : table.plugins.get name = some held) (inactive : table.stateOf name ≠ .active)
    (sound : table.stateOf name ≠ .failed) : Chain env table (table.activate env name held).2 := by
  simp only [activate]
  split
  · exact Chain.markFailed inactive
  · have begun : Chain env table { table with world := (env.init table.world held).2 } := (Change.world table _).chain
    split
    · next ok =>
        rw [ok]
        exact begun.trans
          (Change.started { table with world := (env.init table.world held).2 } found inactive sound).chain
    · next refused =>
        rw [Bool.not_eq_true] at refused
        rw [refused]
        exact (begun.trans (Change.refused _ held).chain).trans (Chain.markFailed inactive)

theorem startPlugin_chain (table : PluginTable δ) (name : String) (autoLoad : Bool) :
    Chain env table (table.startPlugin env name autoLoad).2 := by
  rw [startPlugin]
  cases found : table.plugins.get name with
  | none => exact Chain.refl table
  | some held =>
      have touched : Chain env table (table.touchState name) := (Change.touched table name).chain
      dsimp only
      split
      · exact touched
      · next inactive =>
          split
          · exact touched
          · next sound =>
              split
              · exact touched
              · exact touched.trans (activate_chain found inactive sound)

theorem provide_chain (kept : Kept table) (external : name ≠ builtInRqpPluginId) :
    Chain env table (table.provide env name).2 := by
  simp only [provide]
  split
  · exact Chain.refl table
  · split
    · exact Chain.refl table
    · next unknown =>
        have unknown : table.paths name = none := by simpa using unknown
        cases env.resolveRecord table.world name with
        | none => exact ensurePluginsDiscovered_chain table [name]
        | some record =>
            have written : Chain env table (table.materializeTrusted env name record).2 :=
              materializeTrusted_chain fun active => absurd active (kept.pathless external unknown)
            dsimp only
            split
            · exact written.trans (ensurePluginsDiscovered_chain _ [name])
            · exact written

theorem loadPlugin_chain (kept : Kept table) (name : String) : Chain env table (table.loadPlugin env name).2 := by
  simp only [loadPlugin]
  generalize env.resolvePluginName table.world name = resolvedName
  split
  · have constructed : Chain env table (table.ensurePluginConstructed env resolvedName).2 :=
      ensurePluginConstructed_chain kept resolvedName
    split
    · exact constructed
    · exact constructed.trans (startPlugin_chain _ _ _)
  · next external =>
      have provided : Chain env table (table.provide env resolvedName).2 := provide_chain kept external
      split
      · exact provided
      · have constructed := provided.trans (ensurePluginConstructed_chain (kept.chain provided) resolvedName)
        split
        · exact constructed
        · exact constructed.trans (startPlugin_chain _ _ _)

theorem getPlugin_chain (kept : Kept table) (name : String) : Chain env table (table.getPlugin env name).2 := by
  have constructed : Chain env table (table.ensurePluginConstructed env (env.resolvePluginName table.world name)).2 :=
    ensurePluginConstructed_chain kept _
  simp only [getPlugin]
  split <;> exact constructed

/-! ## Unloading and the end -/

theorem unloadPlugin_chain (kept : Kept table) (name : String) : Chain env table (table.unloadPlugin env name) := by
  simp only [unloadPlugin]
  generalize env.resolvePluginName table.world name = resolvedName
  cases found : table.plugins.get resolvedName with
  | none => exact (Change.forgotten table (kept.absent resolvedName found)).chain
  | some held =>
      have touched : Chain env table (table.touchState resolvedName) := (Change.touched table resolvedName).chain
      dsimp only
      split
      · next active =>
          exact (touched.trans (Change.world _ _).chain).trans
            (Change.unloaded { table.touchState resolvedName with world := env.shutdown table.world held } found active).chain
      · next inactive => exact touched.trans (Change.forgotten _ inactive).chain

theorem plugins_shutdownInstance (entry : String × Nat) : (table.shutdownInstance env entry).plugins = table.plugins := by
  rw [shutdownInstance]
  split <;> rfl

theorem stateOf_shutdownInstance (entry : String × Nat) : (table.shutdownInstance env entry).stateOf other =
    if other = entry.1 ∧ table.stateOf entry.1 = .active then .shutDown else table.stateOf other := by
  rw [shutdownInstance]
  rw [stateOf_touchState]
  by_cases active : table.stateOf entry.1 = .active
  · rw [if_pos active, stateOf_setState]
    by_cases here : other = entry.1
    · rw [if_pos here, if_pos ⟨here, active⟩]
    · rw [if_neg here, if_neg fun both => here both.1]
      exact stateOf_touchState
  · rw [if_neg active, if_neg fun both => active both.2, stateOf_touchState]

theorem shutdownInstance_chain {entry : String × Nat} (found : table.plugins.get entry.1 = some entry.2) :
    Chain env table (table.shutdownInstance env entry) := by
  have touched : Chain env table (table.touchState entry.1) := (Change.touched table entry.1).chain
  rw [shutdownInstance]
  split
  · next active =>
      exact (touched.trans (Change.world _ _).chain).trans
        (Change.stopped { table.touchState entry.1 with world := env.shutdown table.world entry.2 } found active).chain
  · exact touched

/-- The loop of `shutdownAll`: the plugins it reaches are not active afterwards, and no
plugin gets active. -/
theorem foldl_shutdownInstance {entries : List (String × Nat)}
    (present : ∀ entry ∈ entries, table.plugins.get entry.1 = some entry.2) :
    Chain env table (entries.foldl (shutdownInstance env) table) ∧
    (entries.foldl (shutdownInstance env) table).plugins = table.plugins ∧
    ∀ name, (entries.foldl (shutdownInstance env) table).stateOf name = .active →
      table.stateOf name = .active ∧ name ∉ entries.map (·.1) := by
  induction entries generalizing table with
  | nil => exact ⟨Chain.refl table, rfl, fun name active => ⟨active, by simp⟩⟩
  | cons entry entries ih =>
      have here : Chain env table (table.shutdownInstance env entry) := shutdownInstance_chain (present entry (by simp))
      obtain ⟨chain, plugins, inactive⟩ := @ih (table.shutdownInstance env entry) fun later member => by
        rw [plugins_shutdownInstance]
        exact present later (by simp [member])
      refine ⟨here.trans chain, plugins.trans (plugins_shutdownInstance entry), fun name active => ?_⟩
      obtain ⟨still, apart⟩ := inactive name active
      rw [stateOf_shutdownInstance] at still
      by_cases stopped : name = entry.1 ∧ table.stateOf entry.1 = .active
      · rw [if_pos stopped] at still
        cases still
      · rw [if_neg stopped] at still
        have other : name ≠ entry.1 := fun same => stopped ⟨same, same ▸ still⟩
        exact ⟨still, by simpa [other] using apart⟩

theorem shutdownAll_chain (table : PluginTable δ) : Chain env table (table.shutdownAll env) := by
  rw [shutdownAll]
  split
  · exact Chain.refl table
  · exact (foldl_shutdownInstance fun entry member => KeyValue.get_eq_some.2 member).1

/-- With the shutdown configured no plugin is active at the end. -/
theorem shutdownAll_inactive (kept : Kept table) (configured : env.shutDownPluginsOnExit = true) (name : String) :
    (table.shutdownAll env).stateOf name ≠ .active := by
  rw [shutdownAll, configured]
  intro active
  obtain ⟨before, apart⟩ :=
    (foldl_shutdownInstance fun entry member => KeyValue.get_eq_some.2 member).2.2 name active
  cases found : table.plugins.get name with
  | none => exact kept.absent name found before
  | some held => exact apart (List.mem_map.mpr ⟨(name, held), KeyValue.get_eq_some.1 found, rfl⟩)

theorem foldl_eraseInstance {names : List String} (inactive : ∀ name, table.stateOf name ≠ .active) :
    (∀ env : RuntimeEnv δ, Chain env table (names.foldl eraseInstance table)) ∧
    ∀ name, (names.foldl eraseInstance table).plugins.get name =
      if name ∈ names then none else table.plugins.get name := by
  induction names generalizing table with
  | nil => exact ⟨fun _ => Chain.refl table, fun name => by simp⟩
  | cons first names ih =>
      obtain ⟨chain, lookup⟩ := @ih (table.eraseInstance first) fun name => by
        rw [stateOf_eraseInstance]
        exact inactive name
      refine ⟨fun env => (Change.dropped table (inactive first)).chain.trans (chain env), fun name => ?_⟩
      rw [List.foldl_cons, lookup, get_eraseInstance]
      by_cases here : name = first <;> simp [here]

theorem destroy_chain (kept : Kept table) (configured : env.shutDownPluginsOnExit = true) :
    Chain env table (table.destroy env) :=
  (shutdownAll_chain table).trans ((foldl_eraseInstance (shutdownAll_inactive kept configured)).1 env)

/-- Nothing is left of the instances. -/
theorem destroy_get (kept : Kept table) (configured : env.shutDownPluginsOnExit = true) (name : String) :
    (table.destroy env).plugins.get name = none := by
  rw [destroy, (foldl_eraseInstance (shutdownAll_inactive kept configured)).2]
  cases found : (table.shutdownAll env).plugins.get name with
  | none => exact ite_self none
  | some held =>
      rw [if_pos (List.mem_map.mpr ⟨(name, held), KeyValue.get_eq_some.1 found, rfl⟩)]

/-! ## Strikes -/

/-- The call takes the state of an active plugin away: a record is fetched for it, or the
record of the built-in plugin is asked for and refused. -/
def Strikes (env : RuntimeEnv δ) (table : PluginTable δ) : PluginCall → Prop
  | .refreshPlugin name preferLatestTag =>
      env.resolvePluginName table.world name ≠ builtInRqpPluginId ∧
      table.stateOf (env.resolvePluginName table.world name) = .active ∧
      (env.refreshRecord table.world (env.resolvePluginName table.world name) preferLatestTag).1.isSome = true
  | .getPluginSecurityMetadata name =>
      env.securityEnabled = true ∧
      env.resolvePluginName table.world name = builtInRqpPluginId ∧
      table.stateOf builtInRqpPluginId = .active ∧
      ∃ record, env.resolveRecord table.world builtInRqpPluginId = some record ∧
        ¬ RecordUsable env table.world builtInRqpPluginId record
  | _ => False

theorem refreshPlugin_chain {preferLatestTag : Bool} (calm : ¬ Strikes env table (.refreshPlugin name preferLatestTag)) :
    Chain env table (table.refreshPlugin env name preferLatestTag).2 := by
  simp only [Strikes] at calm
  simp only [refreshPlugin]
  generalize env.resolvePluginName table.world name = resolvedName at calm ⊢
  split
  · exact Chain.refl table
  · next external =>
      have asked : Chain env table { table with world := (env.refreshRecord table.world resolvedName preferLatestTag).2 } :=
        (Change.world table _).chain
      cases fetched : (env.refreshRecord table.world resolvedName preferLatestTag).1 with
      | none => exact asked
      | some record =>
          have inactive : table.stateOf resolvedName ≠ .active := fun active =>
            calm ⟨external, active, by rw [fetched]; rfl⟩
          dsimp only
          split
          · exact asked.trans (Chain.markFailed inactive)
          · split
            · exact asked.trans (Chain.markFailed inactive)
            · refine ((asked.trans (materialize_chain _ record)).trans
                (Change.forgotten _ ?_).chain).trans (ensurePluginsDiscovered_chain _ _)
              rw [stateOf_materialize]
              exact inactive

/-- A striking refresh marks or forgets the active plugin, and the rest of it is calm. -/
theorem refreshPlugin_strike {preferLatestTag : Bool} (strikes : Strikes env table (.refreshPlugin name preferLatestTag)) :
    ∃ before struck, Chain env table before ∧ Strike before struck ∧
      Chain env struck (table.refreshPlugin env name preferLatestTag).2 := by
  obtain ⟨external, active, some'⟩ := strikes
  simp only [refreshPlugin]
  generalize env.resolvePluginName table.world name = resolvedName at external active some' ⊢
  obtain ⟨record, fetched⟩ := Option.isSome_iff_exists.mp some'
  have asked : Chain env table { table with world := (env.refreshRecord table.world resolvedName preferLatestTag).2 } :=
    (Change.world table _).chain
  rw [if_neg external, fetched]
  dsimp only
  split
  · exact ⟨_, _, asked, Strike.failed _ active, Chain.refl _⟩
  · split
    · exact ⟨_, _, asked, Strike.failed _ active, Chain.refl _⟩
    · refine ⟨_, _, asked.trans (materialize_chain _ record), @Strike.torn δ _ resolvedName ?_,
        ensurePluginsDiscovered_chain _ _⟩
      rw [stateOf_materialize]
      exact active

theorem provideMetadata_chain (safe : table.paths name = none → ∀ record,
    env.resolveRecord table.world name = some record → table.stateOf name = .active →
      RecordUsable env table.world name record) : Chain env table (table.provideMetadata env name).2 := by
  rw [provideMetadata]
  split
  · exact Chain.refl table
  · next unknown =>
      have unknown : table.paths name = none := by simpa using unknown
      cases found : env.resolveRecord table.world name with
      | none => exact Chain.refl table
      | some record =>
          have written : Chain env table (table.materializeTrusted env name record).2 :=
            materializeTrusted_chain (safe unknown record found)
          dsimp only
          split
          · exact written.trans (ensurePluginsDiscovered_chain _ [name])
          · exact written

theorem getPluginSecurityMetadata_chain (kept : Kept table) (calm : ¬ Strikes env table (.getPluginSecurityMetadata name)) :
    Chain env table (table.getPluginSecurityMetadata env name).2 := by
  simp only [Strikes] at calm
  simp only [getPluginSecurityMetadata]
  generalize env.resolvePluginName table.world name = resolvedName at calm ⊢
  split
  · exact Chain.refl table
  · next enabled =>
      have enabled : env.securityEnabled = true := by simpa using enabled
      have provided : Chain env table (table.provideMetadata env resolvedName).2 := by
        refine provideMetadata_chain fun unknown record found active => ?_
        by_cases builtIn : resolvedName = builtInRqpPluginId
        · subst builtIn
          by_contra unusable
          exact calm ⟨enabled, rfl, active, record, found, unusable⟩
        · exact absurd active (kept.pathless builtIn unknown)
      split
      · exact provided
      · have constructed := provided.trans (ensurePluginConstructed_chain (kept.chain provided) resolvedName)
        split <;> exact constructed

/-- The refused record of the active built-in plugin ends the call. -/
theorem getPluginSecurityMetadata_strike (kept : Kept table)
    (strikes : Strikes env table (.getPluginSecurityMetadata name)) :
    ∃ before struck, Chain env table before ∧ Strike before struck ∧
      Chain env struck (table.getPluginSecurityMetadata env name).2 := by
  obtain ⟨enabled, builtIn, active, record, found, unusable⟩ := strikes
  rcases materializeTrusted_cases table builtInRqpPluginId record with ⟨usable, -⟩ | ⟨-, world, result⟩
  · exact absurd usable unusable
  · have provided : table.provideMetadata env builtInRqpPluginId =
        (false, { table with world := world }.setState builtInRqpPluginId .failed) := by
      simp only [provideMetadata, kept.builtIn, found, result]
      simp
    refine ⟨{ table with world := world }, _, (Change.world table world).chain,
      @Strike.failed δ _ builtInRqpPluginId active, ?_⟩
    simp only [getPluginSecurityMetadata, enabled, builtIn, provided]
    exact Chain.refl _

/-! ## Calls -/

theorem call_chain (kept : Kept table) {call : PluginCall} (calm : ¬ Strikes env table call) :
    Chain env table (table.call env call) := by
  cases call with
  | loadPlugin name => exact loadPlugin_chain kept name
  | getPlugin name => exact getPlugin_chain kept name
  | getPluginSecurityMetadata name => exact getPluginSecurityMetadata_chain kept calm
  | unloadPlugin name => exact unloadPlugin_chain kept name
  | refreshPlugin name preferLatestTag => exact refreshPlugin_chain calm
  | scanDirectory path => exact scanDirectory_chain table path
  | ensurePluginsDiscovered pluginIds => exact ensurePluginsDiscovered_chain table pluginIds
  | shutdownAll => exact shutdownAll_chain table

theorem call_strike (kept : Kept table) {call : PluginCall} (strikes : Strikes env table call) :
    ∃ before struck, Chain env table before ∧ Strike before struck ∧ Chain env struck (table.call env call) := by
  cases call with
  | refreshPlugin name preferLatestTag => exact refreshPlugin_strike strikes
  | getPluginSecurityMetadata name => exact getPluginSecurityMetadata_strike kept strikes
  | loadPlugin name => exact strikes.elim
  | getPlugin name => exact strikes.elim
  | unloadPlugin name => exact strikes.elim
  | scanDirectory path => exact strikes.elim
  | ensurePluginsDiscovered pluginIds => exact strikes.elim
  | shutdownAll => exact strikes.elim

theorem Kept.call (kept : Kept table) (call : PluginCall) : Kept (table.call env call) := by
  by_cases strikes : Strikes env table call
  · obtain ⟨before, struck, calm, strike, rest⟩ := call_strike kept strikes
    exact ((kept.chain calm).strike strike).chain rest
  · exact kept.chain (call_chain kept strikes)

theorem Kept.runCalls (kept : Kept table) (calls : List PluginCall) : Kept (table.runCalls env calls) := by
  induction calls generalizing table with
  | nil => exact kept
  | cons call calls ih => exact ih (kept.call call)

end PluginTable

end ReqPack.Registry
