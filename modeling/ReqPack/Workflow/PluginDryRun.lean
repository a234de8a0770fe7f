import ReqPack.Registry.Damage
import ReqPack.Registry.Lifecycle
import ReqPack.Workflow.PluginFlows

/-! # What the plugin flows do in a dry run

Only the removal consults the setting before it acts.  The refresh, the installation and
the system-wide update leave the machine alone exactly when nothing comes their way that
they would write, unload or hand to the security gateway.
-/

namespace ReqPack.Workflow.PluginFlows

open ReqPack.Data ReqPack.Core ReqPack.Planner ReqPack.Registry ReqPack.Registry.PluginTable

section Damage

variable {δ : Type} {env : FlowEnv δ} {state : FlowState δ} {request : Request} {requests : List Request}

/-- How often plugin files were written or removed, a loaded plugin was shut down or
destroyed, a plugin was called to install, remove or update, or the gateway was used. -/
def FlowState.damage (state : FlowState δ) : Nat := state.table.damage + state.effects.length

def Sound (state : FlowState δ) : Prop := Kept state.table

/-! ## What harms -/

section Harms

variable (env : FlowEnv δ) (state : FlowState δ)

/-- The download of a script gets as far as the plugin directory. -/
def Transfers (world : δ) (source system : String) : Prop :=
  (env.downloadToPath world source system).1 = true ∨ (env.downloadToPath world source system).2.1 = true

/-- The record passes the checks before the first write. -/
def RecordDownloads (world : δ) (system : String) (record : RegistryRecord) : Prop :=
  record.source.isEmpty = false ∧ passesThinLayerTrust (env.registry.registryEnv world) record = true ∧
    ∃ fetched, (currentRecord env.registry world system record).1 = some fetched ∧
      let world := (currentRecord env.registry world system record).2
      (fetched.script.isEmpty = true ∧ Transfers env world fetched.source system) ∨
        (fetched.script.isEmpty = false ∧ matchesExpectedHashes (env.registry.registryEnv world) fetched = true)

/-- There is a record to download from. -/
def DownloadWrites (system : String) : Prop :=
  env.downloaderEnabled = true ∧ (env.ensureReady state.table.world).1 = true ∧
    let world := (env.ensureReady state.table.world).2
    let resolvedSystem := env.downloaderName world system
    ∃ record, downloadRecord env world system resolvedSystem = some record ∧ RecordDownloads env world resolvedSystem record

/-- The plugin is there, and loading it writes its record anew. -/
def ReadyHarms (system : String) : Prop :=
  (state.table.getPlugin env.registry system).1.isSome = true ∧
    Harms env.registry (state.table.getPlugin env.registry system).2 (.loadPlugin system)

def RefreshHarms (request : Request) : Prop :=
  Harms env.registry state.table (.refreshPlugin request.system true) ∨
    ((state.table.refreshPlugin env.registry request.system true).1 = true ∧
      Harms env.registry (state.table.refreshPlugin env.registry request.system true).2 (.loadPlugin request.system))

def InstallHarms (request : Request) : Prop :=
  let resolvedSystem := env.registry.resolvePluginName state.table.world request.system
  resolvedSystem.isEmpty = false ∧ env.pluginBundleExists state.table.world resolvedSystem = false ∧
    DownloadWrites env state resolvedSystem

def ListHarms (request : Request) : Prop :=
  ∃ resolved, env.resolveRequest state.table.world request = some resolved ∧ ReadyHarms env state resolved.system

def PlanningHarms : PlanningCall → Prop
  | .registry call => Harms env.registry state.table call
  | .download system => DownloadWrites env state system

/-- The requests of a loop, each with the state it is handled in. -/
def requestStates (body : FlowState δ → Request → Bool × FlowState δ) (requests : List Request) :
    List (Request × FlowState δ) :=
  loopStates (fun state request => (body state request).2) requests state

/-- What harms in a system-wide update: a plugin written anew when it is listed, something
planner or validator do, a plugin written anew when it is preloaded, or a task of the
security gateway that gets its turn. -/
def SystemWideHarms (requests : List Request) : Prop :=
  let expanded := requests.foldl (expandRequest env) ([], state)
  let validated := validateUpdates env state requests
  let tasks := updateTasks env validated.2 requests
  (∃ entry ∈ loopStates (expandRequest env) requests ([], state),
    requestTargetsSystemWidePackageUpdate entry.1 = true ∧ ListHarms env entry.2.2 entry.1) ∨
  ((expanded.1.any fun request => !request.packages.isEmpty) = true ∧
    ∃ entry ∈ loopStates (planningStep env) (env.planAndValidate expanded.2.table expanded.1).1 expanded.2,
      PlanningHarms env entry.2 entry.1) ∨
  (validated.1 = true ∧
    ((∃ entry ∈ loopStates (preloadTask env) tasks ([], validated.2),
      env.isGatewaySystem entry.1.system = false ∧ ReadyHarms env entry.2.2 entry.1.system) ∨
    ∃ task ∈ env.turns (tasks.foldl (preloadTask env) ([], validated.2)).1, env.isGatewaySystem task.system = true))

def FlowHarms (requests : List Request) : Option PluginFlow → Prop
  | none => False
  | some .systemWidePackageUpdates => SystemWideHarms env state requests
  | some .pluginWrapperRefresh =>
      ∃ entry ∈ requestStates state (refreshWrapper env) requests, RefreshHarms env entry.2 entry.1
  | some .pluginInstall =>
      ∃ entry ∈ requestStates state (installWrapper env) requests, InstallHarms env entry.2 entry.1
  | some .pluginRemove => False

end Harms

/-! ## Steps -/

theorem costs_table {table : PluginTable δ} {harms : Prop} (counts : Counts state.table table harms) :
    Costs FlowState.damage state (state.withTable table) harms := by
  obtain ⟨grows, same⟩ := counts
  refine ⟨Nat.add_le_add_right grows _, ?_⟩
  rw [← same, FlowState.damage, FlowState.damage]
  exact Nat.add_right_cancel_iff

theorem callRegistry_costs (sound : Sound state) (call : PluginCall) :
    Costs FlowState.damage state (callRegistry env state call) (Harms env.registry state.table call) :=
  costs_table (call_counts sound call)

theorem callRegistry_sound (sound : Sound state) (call : PluginCall) : Sound (callRegistry env state call) :=
  Kept.call sound call

@[simp] theorem damage_withWorld (world : δ) : (state.withWorld world).damage = state.damage := rfl

@[simp] theorem damage_effect (effect : FlowEffect) : (state.effect effect).damage = state.damage + 1 := by
  simp [FlowState.damage, FlowState.effect, Nat.add_assoc]

theorem Sound.withWorld (sound : Sound state) (world : δ) : Sound (state.withWorld world) :=
  ⟨sound.fresh, sound.unique, sound.absent, sound.pathed, sound.builtIn⟩

/-! ## Downloading -/

theorem keepScript_damage (state : FlowState δ) (system : String) (record : RegistryRecord) :
    state.damage < (keepScript env state system record).2.damage := by
  simp only [keepScript]
  split
  · simp
  · split
    · simp only [damage_effect, damage_withWorld]
      omega
    · simp

theorem downloadScript_costs (state : FlowState δ) (system : String) (record : RegistryRecord) :
    Costs FlowState.damage state (downloadScript env state system record).2
      (Transfers env state.table.world record.source system) := by
  simp only [downloadScript, Transfers]
  cases moved : (env.downloadToPath state.table.world record.source system).1 with
  | false =>
      cases touched : (env.downloadToPath state.table.world record.source system).2.1 with
      | false => exact Costs.quiet rfl (by simp)
      | true => exact Costs.raised (by simp) (Or.inr rfl)
  | true =>
      refine Costs.raised (Nat.lt_of_le_of_lt ?_ (keepScript_damage _ system record)) (Or.inl rfl)
      split <;> simp

theorem writeDownload_costs (state : FlowState δ) (system : String) (record : RegistryRecord) :
    Costs FlowState.damage state (writeDownload env state system record).2
      ((record.script.isEmpty = true ∧ Transfers env state.table.world record.source system) ∨
        (record.script.isEmpty = false ∧
          matchesExpectedHashes (env.registry.registryEnv state.table.world) record = true)) := by
  simp only [writeDownload]
  by_cases scripted : record.script.isEmpty = true
  · rw [if_pos scripted]
    exact (downloadScript_costs state system record).congr (by simp [scripted])
  · rw [if_neg scripted]
    by_cases hashed : matchesExpectedHashes (env.registry.registryEnv state.table.world) record = true
    · rw [if_neg (by simpa using hashed)]
      exact Costs.raised (by simp) (Or.inr ⟨by simpa using scripted, hashed⟩)
    · rw [if_pos (by simpa using hashed)]
      exact Costs.quiet rfl fun writes => writes.elim (fun here => scripted here.1) fun here => hashed here.2

theorem downloadRecorded_costs (state : FlowState δ) (system : String) (record : RegistryRecord) :
    Costs FlowState.damage state (downloadRecorded env state system record).2
      (RecordDownloads env state.table.world system record) := by
  simp only [downloadRecorded, RecordDownloads]
  cases record.source.isEmpty with
  | true =>
      simp only [if_true]
      exact Costs.quiet rfl fun writes => Bool.noConfusion writes.1
  | false =>
      simp only [Bool.false_eq_true, if_false, true_and]
      cases passesThinLayerTrust (env.registry.registryEnv state.table.world) record with
      | false =>
          simp only [Bool.not_false, if_true]
          exact Costs.quiet rfl fun writes => Bool.noConfusion writes.1
      | true =>
          simp only [Bool.not_true, Bool.false_eq_true, if_false, true_and]
          generalize currentRecord env.registry state.table.world system record = current
          obtain ⟨fetched, world⟩ := current
          cases fetched with
          | none => exact Costs.quiet rfl fun writes => by obtain ⟨fetched, same, -⟩ := writes; cases same
          | some fetched =>
              simp only [Option.some.injEq, exists_eq_left']
              exact writeDownload_costs (state.withWorld world) system fetched

theorem downloadPlugin_costs (state : FlowState δ) (system : String) :
    Costs FlowState.damage state (downloadPlugin env state system).2 (DownloadWrites env state system) := by
  simp only [downloadPlugin, DownloadWrites]
  cases env.downloaderEnabled with
  | false => exact Costs.quiet rfl fun writes => Bool.noConfusion writes.1
  | true =>
      simp only [Bool.not_true, Bool.false_eq_true, if_false, true_and]
      generalize env.ensureReady state.table.world = ready
      obtain ⟨ok, world⟩ := ready
      cases ok with
      | false => exact Costs.quiet rfl fun writes => Bool.noConfusion writes.1
      | true =>
          simp only [Bool.not_true, Bool.false_eq_true, if_false, true_and, FlowState.withWorld]
          cases downloadRecord env world system (env.downloaderName world system) with
          | none => exact Costs.quiet rfl fun writes => by obtain ⟨record, same, -⟩ := writes; cases same
          | some record =>
              simp only [Option.some.injEq, exists_eq_left']
              exact downloadRecorded_costs (state.withWorld world) _ record

theorem keepScript_sound (sound : Sound state) (system : String) (record : RegistryRecord) :
    Sound (keepScript env state system record).2 := by
  simp only [keepScript]
  split
  · exact sound.withWorld _
  · split <;> exact sound.withWorld _

theorem downloadScript_sound (sound : Sound state) (system : String) (record : RegistryRecord) :
    Sound (downloadScript env state system record).2 := by
  simp only [downloadScript]
  have moved : Sound (if (env.downloadToPath state.table.world record.source system).2.1 = true then
      (state.withWorld (env.downloadToPath state.table.world record.source system).2.2).effect (.filesWritten system)
      else state.withWorld (env.downloadToPath state.table.world record.source system).2.2) := by
    split <;> exact sound.withWorld _
  split
  · exact moved
  · exact keepScript_sound moved system record

theorem downloadPlugin_sound (sound : Sound state) (system : String) : Sound (downloadPlugin env state system).2 := by
  have written : ∀ {state : FlowState δ} (system record), Sound state → Sound (writeDownload env state system record).2 := by
    intro state system record sound
    simp only [writeDownload]
    split
    · exact downloadScript_sound sound system record
    · split
      · exact sound
      · exact sound.withWorld _
  have recorded : ∀ {state : FlowState δ} (system record), Sound state →
      Sound (downloadRecorded env state system record).2 := by
    intro state system record sound
    simp only [downloadRecorded]
    split
    · exact sound
    · split
      · exact sound
      · cases (currentRecord env.registry state.table.world system record).1 with
        | none => exact sound.withWorld _
        | some current => exact written system current (sound.withWorld _)
  simp only [downloadPlugin]
  split
  · exact sound
  · split
    · exact sound.withWorld _
    · split
      · exact sound.withWorld _
      · exact recorded _ _ (sound.withWorld _)

/-! ## Ready plugins -/

theorem readyPlugin_sound (sound : Sound state) (system : String) : Sound (readyPlugin env state system).2 := by
  simp only [readyPlugin]
  have found : Kept (state.table.getPlugin env.registry system).2 := Kept.call sound (.getPlugin system)
  split
  · exact found
  · have loaded : Kept ((state.table.getPlugin env.registry system).2.loadPlugin env.registry system).2 :=
      found.call (.loadPlugin system)
    split
    · exact loaded
    · exact loaded.call (.getPlugin system)

theorem readyPlugin_costs (sound : Sound state) (system : String) :
    Costs FlowState.damage state (readyPlugin env state system).2 (ReadyHarms env state system) := by
  simp only [readyPlugin, ReadyHarms]
  have found : Kept (state.table.getPlugin env.registry system).2 := Kept.call sound (.getPlugin system)
  have asked : (state.withTable (state.table.getPlugin env.registry system).2).damage = state.damage :=
    congrArg (· + state.effects.length) (getPlugin_damage sound system)
  cases there : (state.table.getPlugin env.registry system).1 with
  | none => exact Costs.quiet asked (by simp)
  | some held =>
      simp only [Option.isNone_some, Bool.false_eq_true, if_false, Option.isSome_some, true_and]
      have loaded := (Costs.quiet asked id).trans
        (@costs_table δ (state.withTable _) _ _ (@loadPlugin_counts δ env.registry _ found system))
      split
      · exact loaded.congr (by simp)
      · refine (loaded.then ?_).congr (by simp)
        exact congrArg (· + state.effects.length)
          (getPlugin_damage (Kept.call found (.loadPlugin system)) system)

/-! ## The flows -/

theorem refreshWrapper_costs (sound : Sound state) (request : Request) :
    Costs FlowState.damage state (refreshWrapper env state request).2 (RefreshHarms env state request) := by
  simp only [refreshWrapper, RefreshHarms]
  have refreshed : Costs FlowState.damage state
      (state.withTable (state.table.refreshPlugin env.registry request.system true).2)
      (Harms env.registry state.table (.refreshPlugin request.system true)) :=
    costs_table (refreshPlugin_counts sound request.system true)
  have kept : Kept (state.table.refreshPlugin env.registry request.system true).2 :=
    Kept.call sound (.refreshPlugin request.system true)
  cases (state.table.refreshPlugin env.registry request.system true).1 with
  | false => exact refreshed.congr (by simp)
  | true =>
      simp only [Bool.not_true, Bool.false_eq_true, if_false, true_and]
      exact refreshed.trans (costs_table (loadPlugin_counts kept request.system))

theorem refreshWrapper_sound (sound : Sound state) (request : Request) : Sound (refreshWrapper env state request).2 := by
  have kept : Kept (state.table.refreshPlugin env.registry request.system true).2 :=
    Kept.call sound (.refreshPlugin request.system true)
  simp only [refreshWrapper]
  split
  · exact kept
  · exact kept.call (.loadPlugin request.system)

theorem installWrapper_costs (sound : Sound state) (request : Request) :
    Costs FlowState.damage state (installWrapper env state request).2 (InstallHarms env state request) := by
  simp only [installWrapper, InstallHarms]
  generalize env.registry.resolvePluginName state.table.world request.system = resolvedSystem
  cases resolvedSystem.isEmpty with
  | true => exact Costs.quiet rfl fun harms => Bool.noConfusion harms.1
  | false =>
      simp only [Bool.false_eq_true, if_false, true_and]
      cases env.pluginBundleExists state.table.world resolvedSystem with
      | true => exact Costs.quiet rfl fun harms => Bool.noConfusion harms.1
      | false =>
          simp only [Bool.false_eq_true, if_false, true_and]
          have downloaded := @downloadPlugin_costs δ env state resolvedSystem
          have kept : Sound (downloadPlugin env state resolvedSystem).2 := downloadPlugin_sound sound resolvedSystem
          split
          · exact downloaded
          · exact (downloaded.trans (callRegistry_costs kept (.ensurePluginsDiscovered [request.system]))).congr
              (by simp [Harms])

theorem installWrapper_sound (sound : Sound state) (request : Request) : Sound (installWrapper env state request).2 := by
  simp only [installWrapper]
  split
  · exact sound
  · split
    · exact sound
    · have kept := @downloadPlugin_sound δ env state sound
        (env.registry.resolvePluginName state.table.world request.system)
      split
      · exact kept
      · exact callRegistry_sound kept _

/-- In a dry run a removal stops once it has found the bundle. -/
theorem removeWrapper_dry (dry : env.dryRun = true) (state : FlowState δ) (request : Request) :
    (removeWrapper env state request).2 = state := by
  simp only [removeWrapper, dry, if_true]
  split
  · rfl
  · split <;> rfl

theorem listInstalled_costs (sound : Sound state) (request : Request) :
    Costs FlowState.damage state (listInstalled env state request).2 (ListHarms env state request) := by
  simp only [listInstalled, ListHarms]
  cases env.resolveRequest state.table.world request with
  | none => exact Costs.quiet rfl (by simp)
  | some resolved =>
      simp only [Option.some.injEq, exists_eq_left']
      have ready := @readyPlugin_costs δ env state sound resolved.system
      split <;> exact ready

theorem listInstalled_sound (sound : Sound state) (request : Request) : Sound (listInstalled env state request).2 := by
  simp only [listInstalled]
  split
  · exact sound
  · next resolved _ =>
      have ready := @readyPlugin_sound δ env state sound resolved.system
      split
      · exact ready
      · exact ready.withWorld _

theorem overRequests_state (body : FlowState δ → Request → Bool × FlowState δ) (requests : List Request)
    (state : FlowState δ) :
    (overRequests body requests state).2 = requests.foldl (fun state request => (body state request).2) state := by
  rw [overRequests]
  generalize true = ok
  induction requests generalizing ok state with
  | nil => rfl
  | cons request requests ih => exact ih _ _

theorem overRequests_costs {body : FlowState δ → Request → Bool × FlowState δ} {harms : FlowState δ → Request → Prop}
    (kept : ∀ state request, Sound state → Sound (body state request).2)
    (single : ∀ state request, Sound state → Costs FlowState.damage state (body state request).2 (harms state request))
    (sound : Sound state) (requests : List Request) :
    Costs FlowState.damage state (overRequests body requests state).2
      (∃ entry ∈ requestStates state body requests, harms entry.2 entry.1) := by
  rw [overRequests_state]
  exact Costs.foldl kept single requests sound

theorem expandRequests_costs (sound : Sound state) (requests : List Request) :
    Sound (requests.foldl (expandRequest env) ([], state)).2 ∧
    Costs FlowState.damage state (requests.foldl (expandRequest env) ([], state)).2
      (∃ entry ∈ loopStates (expandRequest env) requests ([], state),
        requestTargetsSystemWidePackageUpdate entry.1 = true ∧ ListHarms env entry.2.2 entry.1) := by
  have kept : ∀ (run : List Request × FlowState δ) request, Sound run.2 → Sound (expandRequest env run request).2 := by
    intro run request sound
    simp only [expandRequest]
    split
    · exact sound
    · exact listInstalled_sound sound request
  have single : ∀ (run : List Request × FlowState δ) request, Sound run.2 →
      Costs (fun run : List Request × FlowState δ => run.2.damage) run (expandRequest env run request)
        (requestTargetsSystemWidePackageUpdate request = true ∧ ListHarms env run.2 request) := by
    intro run request sound
    simp only [expandRequest]
    cases requestTargetsSystemWidePackageUpdate request with
    | false => exact Costs.quiet rfl (by simp)
    | true =>
        simp only [true_and]
        exact listInstalled_costs sound request
  have total : Costs (fun run : List Request × FlowState δ => run.2.damage) ([], state) _ _ :=
    Costs.foldl kept single requests sound
  exact ⟨sound_foldl kept requests sound, total⟩

theorem planningSteps_costs (sound : Sound state) (calls : List PlanningCall) :
    Sound (calls.foldl (planningStep env) state) ∧
    Costs FlowState.damage state (calls.foldl (planningStep env) state)
      (∃ entry ∈ loopStates (planningStep env) calls state, PlanningHarms env entry.2 entry.1) := by
  have kept : ∀ (state : FlowState δ) call, Sound state → Sound (planningStep env state call) := by
    intro state call sound
    cases call with
    | registry call => exact callRegistry_sound sound call
    | download system => exact downloadPlugin_sound sound system
  have single : ∀ (state : FlowState δ) call, Sound state →
      Costs FlowState.damage state (planningStep env state call) (PlanningHarms env state call) := by
    intro state call sound
    cases call with
    | registry call => exact callRegistry_costs sound call
    | download system => exact downloadPlugin_costs state system
  exact ⟨sound_foldl kept calls sound, Costs.foldl kept single calls sound⟩

theorem preloadTasks_costs (sound : Sound state) (tasks : List UpdateTask) :
    Sound (tasks.foldl (preloadTask env) ([], state)).2 ∧
    Costs FlowState.damage state (tasks.foldl (preloadTask env) ([], state)).2
      (∃ entry ∈ loopStates (preloadTask env) tasks ([], state),
        env.isGatewaySystem entry.1.system = false ∧ ReadyHarms env entry.2.2 entry.1.system) := by
  have kept : ∀ (run : List UpdateTask × FlowState δ) task, Sound run.2 → Sound (preloadTask env run task).2 := by
    intro run task sound
    simp only [preloadTask]
    split
    · exact sound
    · exact readyPlugin_sound sound task.system
  have single : ∀ (run : List UpdateTask × FlowState δ) task, Sound run.2 →
      Costs (fun run : List UpdateTask × FlowState δ => run.2.damage) run (preloadTask env run task)
        (env.isGatewaySystem task.system = false ∧ ReadyHarms env run.2 task.system) := by
    intro run task sound
    simp only [preloadTask]
    cases env.isGatewaySystem task.system with
    | true => exact Costs.quiet rfl (by simp)
    | false =>
        simp only [true_and]
        exact readyPlugin_costs sound task.system
  have total : Costs (fun run : List UpdateTask × FlowState δ => run.2.damage) ([], state) _ _ :=
    Costs.foldl kept single tasks sound
  exact ⟨sound_foldl kept tasks sound, total⟩

/-- In a dry run only the tasks of the gateway are carried out. -/
theorem executeUpdates_costs (dry : env.dryRun = true) (tasks : List UpdateTask) (run : Bool × FlowState δ) :
    Costs FlowState.damage run.2 (tasks.foldl (executeUpdate env) run).2
      (∃ task ∈ tasks, env.isGatewaySystem task.system = true) := by
  induction tasks generalizing run with
  | nil => exact Costs.quiet rfl (by simp)
  | cons task tasks ih =>
      have first : Costs FlowState.damage run.2 (executeUpdate env run task).2 (env.isGatewaySystem task.system = true) := by
        simp only [executeUpdate, dry, if_true]
        cases env.isGatewaySystem task.system with
        | true => exact Costs.raised (by simp) rfl
        | false =>
            refine Costs.quiet ?_ (by simp)
            simp only [Bool.false_eq_true, if_false]
            split <;> rfl
      exact (first.trans (ih _)).congr (by simp)

theorem validateUpdates_costs (sound : Sound state) (requests : List Request) :
    Sound (validateUpdates env state requests).2 ∧
    Costs FlowState.damage state (validateUpdates env state requests).2
      ((∃ entry ∈ loopStates (expandRequest env) requests ([], state),
        requestTargetsSystemWidePackageUpdate entry.1 = true ∧ ListHarms env entry.2.2 entry.1) ∨
      (((requests.foldl (expandRequest env) ([], state)).1.any fun request => !request.packages.isEmpty) = true ∧
        ∃ entry ∈ loopStates (planningStep env)
            (env.planAndValidate (requests.foldl (expandRequest env) ([], state)).2.table
              (requests.foldl (expandRequest env) ([], state)).1).1 (requests.foldl (expandRequest env) ([], state)).2,
          PlanningHarms env entry.2 entry.1)) := by
  obtain ⟨expandedSound, expanded⟩ := @expandRequests_costs δ env state sound requests
  simp only [validateUpdates]
  generalize requests.foldl (expandRequest env) ([], state) = run at expandedSound expanded ⊢
  cases run.1.any fun request => !request.packages.isEmpty with
  | false => exact ⟨expandedSound, expanded.congr (by simp)⟩
  | true =>
      obtain ⟨plannedSound, planned⟩ := @planningSteps_costs δ env run.2 expandedSound
        (env.planAndValidate run.2.table run.1).1
      simp only [if_true, true_and]
      exact ⟨plannedSound, expanded.trans planned⟩

theorem updateSystems_costs (dry : env.dryRun = true) (sound : Sound state) (requests : List Request) :
    Costs FlowState.damage state (updateSystems env state requests).2
      ((∃ entry ∈ loopStates (preloadTask env) (updateTasks env state requests) ([], state),
        env.isGatewaySystem entry.1.system = false ∧ ReadyHarms env entry.2.2 entry.1.system) ∨
      ∃ task ∈ env.turns ((updateTasks env state requests).foldl (preloadTask env) ([], state)).1,
        env.isGatewaySystem task.system = true) := by
  obtain ⟨-, preloaded⟩ := @preloadTasks_costs δ env state sound (updateTasks env state requests)
  exact preloaded.trans (executeUpdates_costs dry _ (true, _))

theorem runSystemWidePackageUpdates_costs (dry : env.dryRun = true) (sound : Sound state) (requests : List Request) :
    Costs FlowState.damage state (runSystemWidePackageUpdates env requests state).2 (SystemWideHarms env state requests) := by
  obtain ⟨validatedSound, validated⟩ := @validateUpdates_costs δ env state sound requests
  simp only [runSystemWidePackageUpdates, SystemWideHarms]
  generalize validateUpdates env state requests = run at validatedSound validated ⊢
  cases run.1 with
  | false => exact validated.congr (by simp)
  | true =>
      simp only [Bool.not_true, Bool.false_eq_true, if_false, true_and]
      exact (validated.trans (updateSystems_costs dry validatedSound requests)).congr or_assoc

theorem runFlow_costs (dry : env.dryRun = true) (sound : Sound state) (requests : List Request) (flow : Option PluginFlow) :
    Costs FlowState.damage state (runFlow env requests state flow).2 (FlowHarms env state requests flow) := by
  cases flow with
  | none => exact Costs.quiet rfl id
  | some flow =>
      cases flow with
      | systemWidePackageUpdates => exact runSystemWidePackageUpdates_costs dry sound requests
      | pluginWrapperRefresh =>
          exact overRequests_costs (fun _ request sound => refreshWrapper_sound sound request)
            (fun _ request sound => refreshWrapper_costs sound request) sound requests
      | pluginInstall =>
          exact overRequests_costs (fun _ request sound => installWrapper_sound sound request)
            (fun _ request sound => installWrapper_costs sound request) sound requests
      | pluginRemove =>
          refine Costs.quiet (congrArg FlowState.damage ?_) id
          rw [runFlow, overRequests_state]
          induction requests with
          | nil => rfl
          | cons request requests ih =>
              rw [List.foldl_cons, removeWrapper_dry dry]
              exact ih

end Damage

/-- A dry run on a machine with one plugin, which the registry has a script for. -/
def aptFlows : FlowEnv Unit where
  registry := aptRuntime
  dryRun := true
  ensureReady _ := (true, ())
  downloaderName _ system := system
  writeRecordBundle _ _ _ := (true, ())
  downloadToPath _ _ _ := (true, true, ())
  readScript _ _ := "return {}"
  isValidPluginScript _ := true
  writeScriptBundle _ _ _ := (true, ())
  removeScript _ _ := ()
  removeBundle _ _ := ()
  cacheScript _ _ _ := ()
  pluginBundleExists _ system := system == "apt"
  findInstalled _ system := if system = "apt" then some ("plugins/apt", []) else none
  removeAll _ _ := (true, ())
  callPlugin _ _ _ _ _ := (true, ())
  resolveRequest _ request := some request
  listPackages _ _ _ := ([], ())
  planAndValidate _ _ := ([], true)
  isGatewaySystem _ := false
  dispatchGateway _ _ := (true, ())
  turns tasks := tasks

end ReqPack.Workflow.PluginFlows
