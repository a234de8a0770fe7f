import ReqPack.Data.Costs
import ReqPack.Registry.Operations

/-! # Registry calls that write plugin files or stop plugins -/

namespace ReqPack.Registry

open ReqPack.Data ReqPack.Core

/-- A plugin file is written, or a loaded plugin is shut down or destroyed. -/
def RegistryEvent.damages : RegistryEvent → Bool
  | .materialized _ => true
  | .shutDown _ => true
  | .erased _ loaded => loaded
  | _ => false

namespace PluginTable

variable {δ : Type} {env : RuntimeEnv δ} {table : PluginTable δ} {name other : String} {held : Nat}
  {record : RegistryRecord}

def damage (table : PluginTable δ) : Nat := table.events.countP RegistryEvent.damages

@[simp] theorem damage_log (event : RegistryEvent) :
    (table.log event).damage = table.damage + if event.damages then 1 else 0 := by
  simp only [damage, log, List.countP_append, List.countP_singleton]

@[simp] theorem damage_setState (state : PluginState) : (table.setState name state).damage = table.damage := rfl

@[simp] theorem damage_touchState : (table.touchState name).damage = table.damage := rfl

theorem damage_eraseInstance : (table.eraseInstance name).damage =
    table.damage + if (table.plugins.get name).isSome ∧ table.stateOf name = .active then 1 else 0 := by
  rw [eraseInstance]
  cases found : table.plugins.get name with
  | none => simp
  | some held =>
      rw [damage_log]
      by_cases active : table.stateOf name = .active <;> simp [RegistryEvent.damages, active, damage]

/-- An instance goes without damage exactly when its plugin is not active. -/
theorem Kept.damage_eraseInstance (kept : Kept table) (name : String) : (table.eraseInstance name).damage =
    table.damage + if table.stateOf name = .active then 1 else 0 := by
  rw [PluginTable.damage_eraseInstance]
  cases found : table.plugins.get name with
  | none => simp [kept.absent name found]
  | some held => simp

theorem Kept.damage_forget (kept : Kept table) (name : String) : (table.forget name).damage =
    table.damage + if table.stateOf name = .active then 1 else 0 :=
  kept.damage_eraseInstance name

theorem Kept.damage_shutDown (kept : Kept table) (held : Nat) (name : String) :
    table.damage < ((table.log (.shutDown held)).forget name).damage := by
  rw [(kept.log (.shutDown held)).damage_forget, damage_log]
  simp only [RegistryEvent.damages, if_true]
  omega

/-! ## Discovery and construction -/

@[simp] theorem damage_registerProbe (found : String × String) : (table.registerProbe found).damage = table.damage := by
  rw [registerProbe]
  split
  · rfl
  · dsimp only
    split <;> rfl

theorem damage_discoverPlugin (pluginId : String) : (table.discoverPlugin env pluginId).damage = table.damage := by
  have probed : ∀ (table : PluginTable δ) (found : Option (String × String)),
      (found.elim table table.registerProbe).damage = table.damage := by
    intro table found
    cases found with
    | none => rfl
    | some found => exact damage_registerProbe found
  rw [discoverPlugin]
  split
  · exact probed table _
  · exact (probed _ _).trans (probed table _)

/-- A loop without damage in its body does none. -/
theorem damage_foldl {ι : Type} {step : PluginTable δ → ι → PluginTable δ}
    (single : ∀ table item, (step table item).damage = table.damage) (items : List ι) (table : PluginTable δ) :
    (items.foldl step table).damage = table.damage := by
  induction items generalizing table with
  | nil => rfl
  | cons item items ih => exact (ih _).trans (single table item)

@[simp] theorem damage_ensurePluginsDiscovered (pluginIds : List String) :
    (table.ensurePluginsDiscovered env pluginIds).damage = table.damage :=
  damage_foldl (fun _ pluginId => damage_discoverPlugin pluginId) _ table

theorem damage_scanDirectory (path : String) : (table.scanDirectory env path).damage = table.damage :=
  damage_foldl (fun _ found => damage_registerProbe found) _ table

theorem Kept.damage_ensurePluginConstructed (kept : Kept table) (name : String) :
    (table.ensurePluginConstructed env name).2.damage = table.damage := by
  simp only [ensurePluginConstructed]
  generalize env.resolvePluginName table.world name = resolvedName
  by_cases present : (table.plugins.get resolvedName).isSome = true
  · rw [if_pos present]
  · rw [if_neg present]
    have missing : table.plugins.get resolvedName = none := by simpa using present
    cases known : table.paths resolvedName with
    | none => rfl
    | some path =>
        have added : (table.addInstance env resolvedName path).damage = table.damage := damage_log _
        have inactive : (table.addInstance env resolvedName path).stateOf resolvedName ≠ .active :=
          kept.absent resolvedName missing
        dsimp only
        split
        · rw [damage_setState, PluginTable.damage_eraseInstance, if_neg fun both => inactive both.2]
          exact added
        · split
          · exact added
          · exact added

theorem damage_startPlugin (name : String) (autoLoad : Bool) :
    (table.startPlugin env name autoLoad).2.damage = table.damage := by
  rw [startPlugin]
  cases table.plugins.get name with
  | none => rfl
  | some held =>
      dsimp only
      split
      · rfl
      · split
        · rfl
        · split
          · rfl
          · simp only [activate]
            split
            · rfl
            · split <;> exact damage_log _

/-! ## Writing -/

/-- The record is written to the plugin directory. -/
def Writes (env : RuntimeEnv δ) (world : δ) (record : RegistryRecord) : Prop :=
  record.name ≠ builtInRqpPluginId ∧ (record.script.isEmpty && (!record.bundleSource || record.bundlePath.isEmpty)) = false ∧
    (env.writeBundle world record).isSome = true

theorem damage_materialize (record : RegistryRecord) :
    table.damage ≤ (table.materialize env record).damage ∧
    ((table.materialize env record).damage = table.damage ↔ ¬ Writes env table.world record) := by
  rw [materialize]
  by_cases builtIn : record.name = builtInRqpPluginId
  · rw [if_pos builtIn]
    exact ⟨le_rfl, iff_of_true rfl fun writes => writes.1 builtIn⟩
  · rw [if_neg builtIn]
    by_cases empty : (record.script.isEmpty && (!record.bundleSource || record.bundlePath.isEmpty)) = true
    · rw [if_pos empty]
      refine ⟨le_rfl, iff_of_true rfl fun writes => ?_⟩
      rw [writes.2.1] at empty
      cases empty
    · rw [if_neg empty]
      rw [Bool.not_eq_true] at empty
      cases written : env.writeBundle table.world record with
      | none =>
          refine ⟨le_rfl, iff_of_true rfl fun writes => ?_⟩
          have some' := writes.2.2
          rw [written] at some'
          cases some'
      | some world =>
          dsimp only
          rw [damage_log]
          refine ⟨Nat.le_succ _, iff_of_false (fun same => ?_) fun quiet => quiet ⟨builtIn, empty, by rw [written]; rfl⟩⟩
          exact Nat.succ_ne_self _ same

/-- A record passes its checks and is written. -/
def Provides (env : RuntimeEnv δ) (world : δ) (name : String) (record : RegistryRecord) : Prop :=
  passesTrust env world record = true ∧
    ∃ current, (currentRecord env world name record).1 = some current ∧
      matchesExpectedHashes (env.registryEnv (currentRecord env world name record).2) current = true ∧
      Writes env (currentRecord env world name record).2 current

theorem damage_materializeTrusted (name : String) (record : RegistryRecord) :
    table.damage ≤ (table.materializeTrusted env name record).2.damage ∧
    ((table.materializeTrusted env name record).2.damage = table.damage ↔ ¬ Provides env table.world name record) := by
  rcases materializeTrusted_cases table name record with ⟨usable, current, fetched, result⟩ | ⟨unusable, world, result⟩
  · rw [result]
    obtain ⟨grows, same⟩ :=
      @damage_materialize δ env { table with world := (currentRecord env table.world name record).2 } current
    refine ⟨grows, same.trans (not_congr ⟨fun writes => ?_, fun provides => ?_⟩)⟩
    · obtain ⟨trusted, again, found, hashed⟩ := usable
      rw [fetched] at found
      obtain rfl := Option.some.inj found
      exact ⟨trusted, current, fetched, hashed, writes⟩
    · obtain ⟨-, again, found, -, writes⟩ := provides
      rw [fetched] at found
      obtain rfl := Option.some.inj found
      exact writes
  · rw [result]
    refine ⟨le_rfl, iff_of_true rfl fun provides => unusable ?_⟩
    obtain ⟨trusted, current, found, hashed, -⟩ := provides
    exact ⟨trusted, current, found, hashed⟩

/-! ## Calls -/

/-- The plugin has no path yet, and its record is written when it is loaded. -/
def Harms (env : RuntimeEnv δ) (table : PluginTable δ) : PluginCall → Prop
  | .loadPlugin name =>
      let resolvedName := env.resolvePluginName table.world name
      resolvedName ≠ builtInRqpPluginId ∧ table.paths resolvedName = none ∧
        ∃ record, env.resolveRecord table.world resolvedName = some record ∧ canMaterializePlugin record = true ∧
          Provides env table.world resolvedName record
  | .getPluginSecurityMetadata name =>
      let resolvedName := env.resolvePluginName table.world name
      env.securityEnabled = true ∧ table.paths resolvedName = none ∧
        ∃ record, env.resolveRecord table.world resolvedName = some record ∧ Provides env table.world resolvedName record
  | .unloadPlugin name => table.stateOf (env.resolvePluginName table.world name) = .active
  | .refreshPlugin name preferLatestTag =>
      let resolvedName := env.resolvePluginName table.world name
      let refreshed := env.refreshRecord table.world resolvedName preferLatestTag
      resolvedName ≠ builtInRqpPluginId ∧ ∃ record, refreshed.1 = some record ∧
        passesTrust env refreshed.2 record = true ∧ matchesExpectedHashes (env.registryEnv refreshed.2) record = true ∧
          (Writes env refreshed.2 record ∨ table.stateOf resolvedName = .active)
  | .shutdownAll => env.shutDownPluginsOnExit = true ∧ ∃ name, table.stateOf name = .active
  | _ => False

/-- A call does damage unless it does not harm. -/
def Counts (before after : PluginTable δ) (harms : Prop) : Prop := Costs PluginTable.damage before after harms

theorem counts_quiet {before after : PluginTable δ} {harms : Prop} (same : after.damage = before.damage) (quiet : ¬ harms) :
    Counts before after harms :=
  Costs.quiet same quiet

theorem provide_counts (name : String) :
    Counts table (table.provide env name).2 (table.paths name = none ∧
      ∃ record, env.resolveRecord table.world name = some record ∧ canMaterializePlugin record = true ∧
        Provides env table.world name record) := by
  simp only [provide]
  cases found : env.resolveRecord table.world name with
  | none =>
      have quiet : ¬ (table.paths name = none ∧ ∃ record, (none : Option RegistryRecord) = some record ∧
          canMaterializePlugin record = true ∧ Provides env table.world name record) := by
        rintro ⟨-, record, same, -⟩
        cases same
      simp only [Option.any_none, Bool.false_eq_true, if_false]
      split
      · exact counts_quiet rfl quiet
      · exact counts_quiet (damage_ensurePluginsDiscovered _) quiet
  | some record =>
      simp only [Option.any_some, Option.some.injEq, exists_eq_left']
      by_cases able : canMaterializePlugin record = true
      · simp only [able, Bool.not_true, Bool.false_eq_true, if_false, true_and]
        by_cases known : (table.paths name).isSome = true
        · rw [if_pos known]
          refine counts_quiet rfl fun both => ?_
          rw [both.1] at known
          cases known
        · have unknown : table.paths name = none := by simpa using known
          rw [if_neg known]
          simp only [unknown, true_and]
          split
          · rw [Counts, Costs, damage_ensurePluginsDiscovered]
            exact damage_materializeTrusted name record
          · exact damage_materializeTrusted name record
      · simp only [able, Bool.not_false, if_true]
        exact counts_quiet rfl fun both => Bool.noConfusion both.2.1

theorem provideMetadata_counts (name : String) :
    Counts table (table.provideMetadata env name).2 (table.paths name = none ∧
      ∃ record, env.resolveRecord table.world name = some record ∧ Provides env table.world name record) := by
  rw [provideMetadata]
  by_cases known : (table.paths name).isSome = true
  · rw [if_pos known]
    refine counts_quiet rfl fun both => ?_
    rw [both.1] at known
    cases known
  · have unknown : table.paths name = none := by simpa using known
    rw [if_neg known]
    cases found : env.resolveRecord table.world name with
    | none => exact counts_quiet rfl fun both => by obtain ⟨-, record, same, -⟩ := both; cases same
    | some record =>
        simp only [Option.some.injEq, exists_eq_left', unknown, true_and]
        split
        · rw [Counts, Costs, damage_ensurePluginsDiscovered]
          exact damage_materializeTrusted name record
        · exact damage_materializeTrusted name record

theorem loadPlugin_counts (kept : Kept table) (name : String) :
    Counts table (table.loadPlugin env name).2 (Harms env table (.loadPlugin name)) := by
  simp only [loadPlugin, Harms]
  generalize env.resolvePluginName table.world name = resolvedName
  by_cases builtIn : resolvedName = builtInRqpPluginId
  · rw [if_pos builtIn]
    have constructed : (table.ensurePluginConstructed env resolvedName).2.damage = table.damage :=
      kept.damage_ensurePluginConstructed resolvedName
    split
    · exact counts_quiet constructed fun harms => harms.1 builtIn
    · exact counts_quiet ((damage_startPlugin _ _).trans constructed) fun harms => harms.1 builtIn
  · rw [if_neg builtIn]
    simp only [ne_eq, builtIn, not_false_eq_true, true_and]
    have provided := @provide_counts δ env table resolvedName
    have after : Kept (table.provide env resolvedName).2 := kept.chain (provide_chain kept builtIn)
    split
    · exact provided
    · have constructed := @Kept.damage_ensurePluginConstructed δ env _ after resolvedName
      split
      · exact Costs.then provided constructed
      · exact Costs.then provided ((damage_startPlugin _ _).trans constructed)

theorem getPlugin_damage (kept : Kept table) (name : String) : (table.getPlugin env name).2.damage = table.damage := by
  have constructed := @Kept.damage_ensurePluginConstructed δ env table kept (env.resolvePluginName table.world name)
  simp only [getPlugin]
  split <;> exact constructed

theorem getPluginSecurityMetadata_counts (kept : Kept table) (name : String) :
    Counts table (table.getPluginSecurityMetadata env name).2 (Harms env table (.getPluginSecurityMetadata name)) := by
  have after : Kept (table.provideMetadata env (env.resolvePluginName table.world name)).2 := by
    rw [provideMetadata]
    split
    · exact kept
    · cases env.resolveRecord table.world (env.resolvePluginName table.world name) with
      | none => exact kept
      | some record =>
          have written : Kept (table.materializeTrusted env (env.resolvePluginName table.world name) record).2 := by
            rcases materializeTrusted_cases table (env.resolvePluginName table.world name) record with
              ⟨-, current, -, result⟩ | ⟨-, world, result⟩
            · rw [result]
              exact (@Kept.change δ env _ _ kept (Change.world table _)).chain (materialize_chain _ current)
            · rw [result]
              exact (@Kept.change δ env _ _ kept (Change.world table world)).setState fun _ => by simp
          dsimp only
          split
          · exact written.chain (ensurePluginsDiscovered_chain _ _)
          · exact written
  simp only [getPluginSecurityMetadata, Harms]
  generalize env.resolvePluginName table.world name = resolvedName at after ⊢
  by_cases enabled : env.securityEnabled = true
  · simp only [enabled, Bool.not_true, Bool.false_eq_true, if_false, true_and]
    have provided := @provideMetadata_counts δ env table resolvedName
    split
    · exact provided
    · have constructed := @Kept.damage_ensurePluginConstructed δ env _ after resolvedName
      split <;> exact Costs.then provided constructed
  · rw [if_pos (by simpa using enabled)]
    exact counts_quiet rfl fun harms => enabled harms.1

theorem unloadPlugin_counts (kept : Kept table) (name : String) :
    Counts table (table.unloadPlugin env name) (Harms env table (.unloadPlugin name)) := by
  simp only [unloadPlugin, Harms]
  generalize env.resolvePluginName table.world name = resolvedName
  cases found : table.plugins.get resolvedName with
  | none =>
      have inactive := kept.absent resolvedName found
      refine counts_quiet ?_ inactive
      dsimp only
      rw [kept.damage_forget, if_neg inactive, Nat.add_zero]
  | some held =>
      have touched : Kept (table.touchState resolvedName) := kept.setState (kept.absent resolvedName)
      dsimp only
      rw [stateOf_touchState]
      by_cases active : table.stateOf resolvedName = .active
      · rw [if_pos active]
        have grows : table.damage < (({ table.touchState resolvedName with
            world := env.shutdown table.world held }.log (.shutDown held)).forget resolvedName).damage :=
          (@Kept.change δ env _ _ touched (Change.world _ _)).damage_shutDown held resolvedName
        exact ⟨grows.le, iff_of_false grows.ne' fun quiet => quiet active⟩
      · rw [if_neg active]
        refine counts_quiet ?_ active
        rw [touched.damage_forget, stateOf_touchState, if_neg active, Nat.add_zero, damage_touchState]

theorem refreshPlugin_counts (kept : Kept table) (name : String) (preferLatestTag : Bool) :
    Counts table (table.refreshPlugin env name preferLatestTag).2 (Harms env table (.refreshPlugin name preferLatestTag)) := by
  simp only [refreshPlugin, Harms]
  generalize env.resolvePluginName table.world name = resolvedName
  by_cases builtIn : resolvedName = builtInRqpPluginId
  · rw [if_pos builtIn]
    exact counts_quiet rfl fun harms => harms.1 builtIn
  · rw [if_neg builtIn]
    simp only [ne_eq, builtIn, not_false_eq_true, true_and]
    cases fetched : (env.refreshRecord table.world resolvedName preferLatestTag).1 with
    | none => exact counts_quiet rfl fun harms => by obtain ⟨record, same, -⟩ := harms; cases same
    | some record =>
        simp only [Option.some.injEq, exists_eq_left']
        by_cases trusted : passesTrust env (env.refreshRecord table.world resolvedName preferLatestTag).2 record = true
        · rw [if_neg (by simpa using trusted)]
          by_cases hashed : matchesExpectedHashes
              (env.registryEnv (env.refreshRecord table.world resolvedName preferLatestTag).2) record = true
          · rw [if_neg (by simpa using hashed)]
            have asked : Kept { table with world := (env.refreshRecord table.world resolvedName preferLatestTag).2 } :=
              @Kept.change δ env _ _ kept (Change.world table _)
            obtain ⟨grows, same⟩ := @damage_materialize δ env
              { table with world := (env.refreshRecord table.world resolvedName preferLatestTag).2 } record
            have forgotten := (asked.chain (@materialize_chain δ env _ record)).damage_forget resolvedName
            rw [stateOf_materialize] at forgotten
            simp only [trusted, hashed, true_and, Counts, Costs, damage_ensurePluginsDiscovered, forgotten, not_or, ← same]
            have base : ({ table with world := (env.refreshRecord table.world resolvedName preferLatestTag).2 } :
                PluginTable δ).damage = table.damage := rfl
            have state : ({ table with world := (env.refreshRecord table.world resolvedName preferLatestTag).2 } :
                PluginTable δ).stateOf resolvedName = table.stateOf resolvedName := rfl
            rw [base] at grows ⊢
            rw [state]
            by_cases active : table.stateOf resolvedName = .active
            · simp only [active, if_true]
              exact ⟨by omega, iff_of_false (by omega) fun both => both.2 trivial⟩
            · simp only [active, if_false, Nat.add_zero, not_false_eq_true, and_true, iff_self]
              exact grows
          · rw [if_pos (by simpa using hashed)]
            exact counts_quiet rfl fun harms => hashed harms.2.1
        · rw [if_pos (by simpa using trusted)]
          exact counts_quiet rfl fun harms => trusted harms.1

theorem foldl_shutdownInstance_damage (entries : List (String × Nat)) (table : PluginTable δ) :
    table.damage ≤ (entries.foldl (shutdownInstance env) table).damage ∧
    ((entries.foldl (shutdownInstance env) table).damage = table.damage ↔
      ∀ entry ∈ entries, table.stateOf entry.1 ≠ .active) := by
  induction entries generalizing table with
  | nil => simp
  | cons entry entries ih =>
      obtain ⟨grows, same⟩ := ih (table.shutdownInstance env entry)
      rw [List.foldl_cons]
      by_cases active : table.stateOf entry.1 = .active
      · have stopped : (table.shutdownInstance env entry).damage = table.damage + 1 := by
          rw [shutdownInstance, stateOf_touchState, if_pos active, damage_setState, damage_log]
          rfl
        exact ⟨by omega, iff_of_false (by omega) fun idle => idle entry (by simp) active⟩
      · have quiet : (table.shutdownInstance env entry).damage = table.damage := by
          rw [shutdownInstance, stateOf_touchState, if_neg active, damage_touchState]
        have states : ∀ name, (table.shutdownInstance env entry).stateOf name = table.stateOf name := fun name => by
          rw [stateOf_shutdownInstance, if_neg fun both => active both.2]
        rw [quiet] at grows same
        refine ⟨grows, same.trans ?_⟩
        simp only [states, List.forall_mem_cons, ne_eq, active, not_false_eq_true, true_and]

theorem shutdownAll_counts (kept : Kept table) : Counts table (table.shutdownAll env) (Harms env table .shutdownAll) := by
  rw [shutdownAll]
  simp only [Harms]
  by_cases configured : env.shutDownPluginsOnExit = true
  · rw [if_neg (by simpa using configured)]
    obtain ⟨grows, same⟩ := @foldl_shutdownInstance_damage δ env table.plugins.entries table
    refine ⟨grows, same.trans ?_⟩
    simp only [configured, true_and, not_exists]
    constructor
    · intro idle name active
      cases found : table.plugins.get name with
      | none => exact kept.absent name found active
      | some held => exact idle (name, held) (KeyValue.get_eq_some.1 found) active
    · exact fun idle entry _ => idle entry.1
  · rw [if_pos (by simpa using configured)]
    exact counts_quiet rfl fun harms => configured harms.1

/-- A call does damage exactly when it harms. -/
theorem call_counts (kept : Kept table) (call : PluginCall) : Counts table (table.call env call) (Harms env table call) := by
  cases call with
  | loadPlugin name => exact loadPlugin_counts kept name
  | getPlugin name => exact counts_quiet (getPlugin_damage kept name) id
  | getPluginSecurityMetadata name => exact getPluginSecurityMetadata_counts kept name
  | unloadPlugin name => exact unloadPlugin_counts kept name
  | refreshPlugin name preferLatestTag => exact refreshPlugin_counts kept name preferLatestTag
  | scanDirectory path => exact counts_quiet (damage_scanDirectory path) id
  | ensurePluginsDiscovered pluginIds => exact counts_quiet (damage_ensurePluginsDiscovered pluginIds) id
  | shutdownAll => exact shutdownAll_counts kept

end PluginTable

end ReqPack.Registry
