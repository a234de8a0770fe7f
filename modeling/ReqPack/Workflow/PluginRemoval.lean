import ReqPack.Data.Paths
import ReqPack.Planner.Bundle

/-! # Removing plugin wrappers

`Orchestrator::runPluginRemoveRequests`: for each request the packages the bundle
depends on are removed system by system, and then the directory of the bundle.
-/

namespace ReqPack.Workflow

open ReqPack.Data ReqPack.Core ReqPack.Planner

/-- What the removal reads of a `PluginBundleLayout`. -/
structure PluginBundleLayout where
  rootDir : Path
  name : String
  manifest : PluginBundleManifest
deriving Repr, DecidableEq

/-- The plugin directories by their absolute paths, and the world the plugins and the
registry act on, which the directories are no part of. -/
structure RemovalState (σ τ : Type) where
  contents : Path → Option τ
  world : σ

/-- The configuration, the file system and the registry as the removal sees them.  Calls
may depend on everything, but change nothing of the plugin directories. -/
structure RemovalEnv (σ τ : Type) where
  resolvePluginName : String → String
  pluginDirectory : Path
  /-- `std::filesystem::current_path`; none when it fails -/
  currentPath : Option Path
  /-- `std::filesystem::absolute(..).lexically_normal()` -/
  absolute : Path → Path
  probeDirectory : τ → Bool
  /-- the name in `metadata.json` and the manifest in `reqpack.lua` -/
  readBundle : τ → Option (String × PluginBundleManifest)
  dryRun : Bool
  getPlugin : RemovalState σ τ → String → Bool × σ
  loadPlugin : RemovalState σ τ → String → Bool × σ
  remove : RemovalState σ τ → String → List String → List Package → Bool × σ
  unloadPlugin : RemovalState σ τ → String → σ
  ensurePluginsDiscovered : RemovalState σ τ → String → σ
  /-- `std::filesystem::remove_all`; on an error its message and what is left behind -/
  removeAll : RemovalState σ τ → Path → Option (String × (Path → Option τ))

/-- `RunResultJsonItem`: the status is that of a removal. -/
structure RemovalItem where
  name : String
  ok : Bool
  errorMessage : String := ""
deriving Repr, DecidableEq

/-- A call of a plugin's `remove`, with the plugin directories at that time. -/
structure RemoveCall (τ : Type) where
  contents : Path → Option τ
  system : String
  flags : List String
  packages : List Package

/-- What a request did: where its bundle was, if it had one, and the plugin directories
before and after. -/
structure RemovalStep (τ : Type) where
  item : RemovalItem
  root : Option Path
  before : Path → Option τ
  after : Path → Option τ
  calls : List (RemoveCall τ)

section Removal

variable {σ τ : Type} (env : RemovalEnv σ τ)

def silentRuntimeFlag : String := "__reqpack-internal-silent-runtime"

/-- `plugin_bundle_read_directory`. -/
def readDirectory (contents : Path → Option τ) (directory : Path) : Option PluginBundleLayout :=
  (contents (env.absolute directory)).bind fun content =>
    (env.readBundle content).map fun bundle =>
      { rootDir := env.absolute directory, name := bundle.1, manifest := bundle.2 }

def probeDirectory (contents : Path → Option τ) (directory : Path) : Bool :=
  (contents (env.absolute directory)).any env.probeDirectory

/-- `plugin_bundle_materialized_plugin_path`. -/
def materializedPluginPath (contents : Path → Option τ) (normalized : String) : Option Path :=
  let letter := String.ofList (normalized.toList.take 1)
  let bundle := Path.ofText normalized
  [env.pluginDirectory.append bundle, (env.pluginDirectory.append (Path.ofText letter)).append bundle].find?
    (probeDirectory env contents)

/-- `plugin_bundle_find_installed`. -/
def pluginBundleFindInstalled (contents : Path → Option τ) (pluginId : String) : Option PluginBundleLayout :=
  let normalized := toLowerCopy pluginId
  if normalized.isEmpty then none
  else
    match (materializedPluginPath env contents normalized).bind (readDirectory env contents) with
    | some layout => some layout
    | none =>
        env.currentPath.bind fun current =>
          let workspacePath := (current.append ["plugins"]).append (Path.ofText normalized)
          if workspacePath = env.pluginDirectory.append (Path.ofText normalized) then none
          else readDirectory env contents workspacePath

/-- `plugin_bundle_remove_dependencies`. -/
def pluginBundleRemoveDependencies (layout : PluginBundleLayout) : List Package :=
  (pluginBundleDependencyPackages layout.manifest).map fun dependency =>
    let dependency := plannerNormalizeDependency dependency layout.name
    { dependency with action := .remove, system := env.resolvePluginName dependency.system }

/-- The dependencies that have a system and a name. -/
def removableDependencies (layout : PluginBundleLayout) : List Package :=
  (pluginBundleRemoveDependencies env layout).filter fun dependency =>
    !(dependency.system.isEmpty || dependency.name.isEmpty)

/-- The map from systems to dependencies, in the order of the systems. -/
def dependencyGroups (layout : PluginBundleLayout) : List (String × List Package) :=
  let dependencies := removableDependencies env layout
  (stableSort textLess (dependencies.map (·.system)).dedup).map fun system =>
    (system, dependencies.filter fun dependency => dependency.system == system)

def RemovalState.with (state : RemovalState σ τ) (world : σ) : RemovalState σ τ := { state with world := world }

/-- The three questions before a plugin is called: whether it is there, whether it loads,
and whether it is there still. -/
def pluginReady (state : RemovalState σ τ) (system : String) : Bool × RemovalState σ τ :=
  let found := env.getPlugin state system
  let state := state.with found.2
  if !found.1 then (false, state)
  else
    let loaded := env.loadPlugin state system
    let state := state.with loaded.2
    if !loaded.1 then (false, state)
    else
      let again := env.getPlugin state system
      (again.1, state.with again.2)

/-- The loop over the dependencies of one bundle. -/
def removeDependencies (flags : List String) :
    List (String × List Package) → RemovalState σ τ → Bool × RemovalState σ τ × List (RemoveCall τ)
  | [], state => (true, state, [])
  | (system, packages) :: groups, state =>
      let ready := pluginReady env state system
      if !ready.1 then (false, ready.2, [])
      else
        let call := { contents := ready.2.contents, system := system, flags := flags, packages := packages }
        let removed := env.remove ready.2 system flags packages
        let state := ready.2.with removed.2
        if !removed.1 then (false, state, [call])
        else
          let rest := removeDependencies flags groups state
          (rest.1, rest.2.1, call :: rest.2.2)

/-- The directories when `remove_all` is done with one of them and all below it. -/
def clearBelow (root : Path) (contents left : Path → Option τ) : Path → Option τ := fun path =>
  if root <+: path then left path else contents path

/-- The directory of a bundle goes once its dependencies are gone. -/
def deleteBundle (request : Request) (resolvedSystem : String) (root : Path) (state : RemovalState σ τ) :
    RemovalItem × RemovalState σ τ :=
  let state := state.with (env.unloadPlugin state resolvedSystem)
  match env.removeAll state root with
  | some (message, left) =>
      ({ name := request.system, ok := false, errorMessage := message },
        { state with contents := clearBelow root state.contents left })
  | none =>
      let state := { state with contents := clearBelow root state.contents fun _ => none }
      ({ name := request.system, ok := true }, state.with (env.ensurePluginsDiscovered state request.system))

/-- The body of the loop over the requests. -/
def removeRequest (request : Request) (state : RemovalState σ τ) : RemovalStep τ × RemovalState σ τ :=
  let resolvedSystem := env.resolvePluginName request.system
  let stays (item : RemovalItem) (root : Option Path) : RemovalStep τ × RemovalState σ τ :=
    ({ item := item, root := root, before := state.contents, after := state.contents, calls := [] }, state)
  if resolvedSystem.isEmpty then
    stays { name := request.system, ok := false, errorMessage := "plugin resolve failed" } none
  else
    match pluginBundleFindInstalled env state.contents resolvedSystem with
    | none => stays { name := request.system, ok := false, errorMessage := "plugin not installed" } none
    | some layout =>
        if env.dryRun then stays { name := request.system, ok := true } (some layout.rootDir)
        else
          let removed :=
            removeDependencies env (request.flags ++ [silentRuntimeFlag]) (dependencyGroups env layout) state
          if !removed.1 then
            ({ item := { name := request.system, ok := false, errorMessage := "plugin dependency remove failed" }
               root := some layout.rootDir
               before := state.contents
               after := removed.2.1.contents
               calls := removed.2.2 }, removed.2.1)
          else
            let deleted := deleteBundle env request resolvedSystem layout.rootDir removed.2.1
            ({ item := deleted.1
               root := some layout.rootDir
               before := state.contents
               after := deleted.2.contents
               calls := removed.2.2 }, deleted.2)

/-- The steps of the run, and the state it ends in. -/
def removeRequests : List Request → RemovalState σ τ → List (RemovalStep τ) × RemovalState σ τ
  | [], state => ([], state)
  | request :: requests, state =>
      let step := removeRequest env request state
      let rest := removeRequests requests step.2
      (step.1 :: rest.1, rest.2)

/-- `runPluginRemoveRequests`: the exit code, the items, and what happened on the way. -/
def runPluginRemoveRequests (requests : List Request) (state : RemovalState σ τ) :
    Nat × List (RemovalStep τ) × RemovalState σ τ :=
  let run := removeRequests env requests state
  (if run.1.all (·.item.ok) then 0 else 1, run)

/-! ## What a removal must spare -/

/-- An installed bundle that no request names lists the dependency. -/
def ListedElsewhere (requests : List Request) (contents : Path → Option τ) (dependency : Package) : Prop :=
  ∃ other layout, pluginBundleFindInstalled env contents other = some layout ∧
    (∀ request ∈ requests, toLowerCopy (env.resolvePluginName request.system) ≠ toLowerCopy other) ∧
    ∃ listed ∈ pluginBundleRemoveDependencies env layout,
      listed.system = dependency.system ∧ listed.name = dependency.name ∧ listed.version = dependency.version

/-- No dependency of another bundle is removed in a step, and a step that failed left the
directory of its bundle as it was. -/
structure RemovalStep.Spares (requests : List Request) (step : RemovalStep τ) : Prop where
  dependencies : ∀ call ∈ step.calls, ∀ dependency ∈ call.packages,
    ¬ ListedElsewhere env requests call.contents dependency
  intact : step.item.ok = false → ∀ root, step.root = some root → ∀ path, root <+: path → step.after path = step.before path

/-- The requests that are handled, with the state before each of them. -/
def statesBefore : List Request → RemovalState σ τ → List (Request × RemovalState σ τ)
  | [], _ => []
  | request :: requests, state => (request, state) :: statesBefore requests (removeRequest env request state).2

/-- The bundle a request is about to remove. -/
def bundleToRemove (request : Request) (before : RemovalState σ τ) : Option PluginBundleLayout :=
  let resolvedSystem := env.resolvePluginName request.system
  if resolvedSystem.isEmpty || env.dryRun then none
  else pluginBundleFindInstalled env before.contents resolvedSystem

/-- The loop over the dependencies gets behind these groups. -/
def RemovesAll (request : Request) (groups : List (String × List Package)) (before after : RemovalState σ τ) : Prop :=
  ∃ calls, removeDependencies env (request.flags ++ [silentRuntimeFlag]) groups before = (true, after, calls)

/-- No dependency of the bundle that gets its turn is shared with a bundle that stays: the
systems before it were removed, and its own plugin is ready. -/
def SharesNothing (requests : List Request) (request : Request) (before : RemovalState σ τ)
    (layout : PluginBundleLayout) : Prop :=
  ∀ front system packages back after, dependencyGroups env layout = front ++ (system, packages) :: back →
    RemovesAll env request front before after → (pluginReady env after system).1 = true →
      ∀ dependency ∈ packages, ¬ ListedElsewhere env requests before.contents dependency

/-- The deletion of the directory, when it is reached, does not fail half way. -/
def DeletesWhole (request : Request) (before : RemovalState σ τ) (layout : PluginBundleLayout) : Prop :=
  ∀ after message left, RemovesAll env request (dependencyGroups env layout) before after →
    env.removeAll (after.with (env.unloadPlugin after (env.resolvePluginName request.system))) layout.rootDir =
        some (message, left) →
      ∀ path, layout.rootDir <+: path → left path = before.contents path

end Removal

section Facts

variable {σ τ : Type} {env : RemovalEnv σ τ} {request : Request} {requests : List Request}
  {flags : List String} {groups : List (String × List Package)} {state before after : RemovalState σ τ}
  {layout : PluginBundleLayout}

/-! ## The loop over the dependencies -/

@[simp] theorem with_contents (world : σ) : (state.with world).contents = state.contents := rfl

theorem pluginReady_contents (system : String) : (pluginReady env state system).2.contents = state.contents := by
  unfold pluginReady
  simp only
  split
  · rfl
  · split <;> rfl

theorem removeDependencies_contents : (removeDependencies env flags groups state).2.1.contents = state.contents := by
  induction groups generalizing state with
  | nil => rfl
  | cons group groups ih =>
      obtain ⟨system, packages⟩ := group
      simp only [removeDependencies]
      split
      · exact pluginReady_contents system
      · split
        · exact pluginReady_contents system
        · exact ih.trans (pluginReady_contents system)

/-- The call for one group, made in a state its plugin is ready in. -/
def callFor (state : RemovalState σ τ) (flags : List String) (system : String) (packages : List Package) :
    RemoveCall τ :=
  { contents := state.contents, system := system, flags := flags, packages := packages }

theorem removeDependencies_unready {system : String} {packages : List Package}
    (unready : (pluginReady env state system).1 = false) :
    removeDependencies env flags ((system, packages) :: groups) state = (false, (pluginReady env state system).2, []) := by
  simp only [removeDependencies, unready, Bool.not_false, if_true]

theorem removeDependencies_refused {system : String} {packages : List Package}
    (ready : (pluginReady env state system).1 = true)
    (refused : (env.remove (pluginReady env state system).2 system flags packages).1 = false) :
    removeDependencies env flags ((system, packages) :: groups) state =
      (false, (pluginReady env state system).2.with (env.remove (pluginReady env state system).2 system flags packages).2,
        [callFor state flags system packages]) := by
  simp only [removeDependencies, ready, refused, Bool.not_true, Bool.false_eq_true, if_false, Bool.not_false, if_true,
    callFor, pluginReady_contents]

theorem removeDependencies_removed {system : String} {packages : List Package}
    (ready : (pluginReady env state system).1 = true)
    (removed : (env.remove (pluginReady env state system).2 system flags packages).1 = true) :
    ∃ next : RemovalState σ τ, next.contents = state.contents ∧ ∀ groups,
      removeDependencies env flags ((system, packages) :: groups) state =
        ((removeDependencies env flags groups next).1, (removeDependencies env flags groups next).2.1,
          callFor state flags system packages :: (removeDependencies env flags groups next).2.2) := by
  refine ⟨(pluginReady env state system).2.with
    (env.remove (pluginReady env state system).2 system flags packages).2, pluginReady_contents system, fun groups => ?_⟩
  simp only [removeDependencies, ready, removed, Bool.not_true, Bool.false_eq_true, if_false, callFor,
    pluginReady_contents]

/-- A group gets its turn. -/
def GetsTurn (env : RemovalEnv σ τ) (flags : List String) (groups : List (String × List Package))
    (state : RemovalState σ τ) (system : String) (packages : List Package) : Prop :=
  ∃ front back after calls, groups = front ++ (system, packages) :: back ∧
    removeDependencies env flags front state = (true, after, calls) ∧ (pluginReady env after system).1 = true

/-- The first group gets its turn when its plugin is ready, and a later one when the
first one is removed. -/
theorem getsTurn_cons {system first : String} {packages firstPackages : List Package} :
    GetsTurn env flags ((first, firstPackages) :: groups) state system packages ↔
      (system = first ∧ packages = firstPackages ∧ (pluginReady env state first).1 = true) ∨
        ∃ front back after calls, groups = front ++ (system, packages) :: back ∧
          removeDependencies env flags ((first, firstPackages) :: front) state = (true, after, calls) ∧
          (pluginReady env after system).1 = true := by
  constructor
  · rintro ⟨front, back, after, calls, split, removed, ready⟩
    cases front with
    | nil =>
        obtain ⟨same, rfl⟩ := List.cons.inj split
        cases same
        cases removed
        exact Or.inl ⟨rfl, rfl, ready⟩
    | cons group front =>
        obtain ⟨rfl, rest⟩ := List.cons.inj split
        exact Or.inr ⟨front, back, after, calls, rest, removed, ready⟩
  · rintro (⟨rfl, rfl, ready⟩ | ⟨front, back, after, calls, rfl, removed, ready⟩)
    · exact ⟨[], groups, state, [], rfl, rfl, ready⟩
    · exact ⟨(first, firstPackages) :: front, back, after, calls, rfl, removed, ready⟩

/-- The calls that are made are those of the groups that get their turn. -/
theorem mem_removeDependencies_calls {call : RemoveCall τ} :
    call ∈ (removeDependencies env flags groups state).2.2 ↔
      ∃ system packages, GetsTurn env flags groups state system packages ∧
        call = callFor state flags system packages := by
  induction groups generalizing state with
  | nil => simp [removeDependencies, GetsTurn]
  | cons group groups ih =>
      obtain ⟨first, firstPackages⟩ := group
      simp only [getsTurn_cons]
      cases ready : (pluginReady env state first).1 with
      | false =>
          rw [removeDependencies_unready ready]
          simp [removeDependencies_unready ready]
      | true =>
          cases removed : (env.remove (pluginReady env state first).2 first flags firstPackages).1 with
          | false =>
              rw [removeDependencies_refused ready removed]
              simp [removeDependencies_refused ready removed]
          | true =>
              obtain ⟨next, contents, step⟩ := removeDependencies_removed ready removed
              have same : ∀ system packages, callFor next flags system packages =
                  callFor state flags system packages := by
                intro system packages
                rw [callFor, callFor, contents]
              simp only [step, List.mem_cons, ih, same, GetsTurn]
              constructor
              · rintro (rfl | ⟨system, packages, ⟨front, back, after, calls, split, run, turn⟩, rfl⟩)
                · exact ⟨first, firstPackages, Or.inl ⟨rfl, rfl, True.intro⟩, rfl⟩
                · exact ⟨system, packages, Or.inr ⟨front, back, after, _, split, by rw [run], turn⟩, rfl⟩
              · rintro ⟨system, packages, ⟨rfl, rfl, -⟩ | ⟨front, back, after, calls, split, run, turn⟩, rfl⟩
                · exact Or.inl rfl
                · have ok : (removeDependencies env flags front next).1 = true := congrArg Prod.fst run
                  have final : (removeDependencies env flags front next).2.1 = after :=
                    congrArg (fun result => result.2.1) run
                  exact Or.inr ⟨system, packages, ⟨front, back, after, _, split,
                    Prod.ext ok (Prod.ext final rfl), turn⟩, rfl⟩

/-! ## One request -/

theorem clearBelow_apply {root path : Path} {contents left : Path → Option τ} (below : root <+: path) :
    clearBelow root contents left path = left path := if_pos below

theorem bundleToRemove_eq_some (found : bundleToRemove env request before = some layout) :
    env.dryRun = false ∧ (env.resolvePluginName request.system).isEmpty = false ∧
      pluginBundleFindInstalled env before.contents (env.resolvePluginName request.system) = some layout := by
  simp only [bundleToRemove] at found
  split at found
  · cases found
  · next acts =>
      simp only [Bool.or_eq_true, not_or, Bool.not_eq_true] at acts
      exact ⟨acts.2, acts.1, found⟩

/-- A request without a bundle to remove makes no call and changes nothing. -/
theorem removeRequest_idle (idle : bundleToRemove env request before = none) :
    (removeRequest env request before).1.calls = [] ∧
      (removeRequest env request before).1.after = (removeRequest env request before).1.before := by
  simp only [bundleToRemove] at idle
  simp only [removeRequest]
  by_cases unresolved : (env.resolvePluginName request.system).isEmpty = true
  · simp only [if_pos unresolved, and_self]
  · rw [if_neg unresolved]
    cases found : pluginBundleFindInstalled env before.contents (env.resolvePluginName request.system) with
    | none => exact ⟨rfl, rfl⟩
    | some layout =>
        have dry : env.dryRun = true := by
          by_contra acts
          rw [if_neg (by simp [unresolved, acts]), found] at idle
          cases idle
        simp only [dry, if_true, and_self]

/-- What the loop over the dependencies of a request comes to. -/
def dependencyRun (env : RemovalEnv σ τ) (request : Request) (before : RemovalState σ τ) (layout : PluginBundleLayout) :
    Bool × RemovalState σ τ × List (RemoveCall τ) :=
  removeDependencies env (request.flags ++ [silentRuntimeFlag]) (dependencyGroups env layout) before

/-- The deletion of a bundle, after its plugin was unloaded. -/
def deletionRun (env : RemovalEnv σ τ) (request : Request) (before : RemovalState σ τ) (layout : PluginBundleLayout) :
    RemovalItem × RemovalState σ τ :=
  deleteBundle env request (env.resolvePluginName request.system) layout.rootDir (dependencyRun env request before layout).2.1

theorem removeRequest_kept (found : bundleToRemove env request before = some layout)
    (kept : (dependencyRun env request before layout).1 = false) :
    (removeRequest env request before).1 =
      { item := { name := request.system, ok := false, errorMessage := "plugin dependency remove failed" }
        root := some layout.rootDir
        before := before.contents
        after := before.contents
        calls := (dependencyRun env request before layout).2.2 } := by
  obtain ⟨wet, resolved, installed⟩ := bundleToRemove_eq_some found
  have unchanged : (dependencyRun env request before layout).2.1.contents = before.contents := removeDependencies_contents
  rw [dependencyRun] at kept unchanged ⊢
  simp only [removeRequest, resolved, installed, wet, Bool.false_eq_true, if_false, kept, Bool.not_false, if_true,
    unchanged]

theorem removeRequest_deleting (found : bundleToRemove env request before = some layout)
    (removed : (dependencyRun env request before layout).1 = true) :
    (removeRequest env request before).1 =
      { item := (deletionRun env request before layout).1
        root := some layout.rootDir
        before := before.contents
        after := (deletionRun env request before layout).2.contents
        calls := (dependencyRun env request before layout).2.2 } := by
  obtain ⟨wet, resolved, installed⟩ := bundleToRemove_eq_some found
  rw [deletionRun, dependencyRun]
  rw [dependencyRun] at removed
  simp only [removeRequest, resolved, installed, wet, Bool.false_eq_true, if_false, removed, Bool.not_true]

theorem dependencies_spared_iff (found : bundleToRemove env request before = some layout) :
    (∀ call ∈ (removeRequest env request before).1.calls, ∀ dependency ∈ call.packages,
        ¬ ListedElsewhere env requests call.contents dependency) ↔
      SharesNothing env requests request before layout := by
  have calls : (removeRequest env request before).1.calls = (dependencyRun env request before layout).2.2 := by
    cases removed : (dependencyRun env request before layout).1 with
    | false => rw [removeRequest_kept found removed]
    | true => rw [removeRequest_deleting found removed]
  rw [calls, dependencyRun]
  simp only [mem_removeDependencies_calls, GetsTurn, SharesNothing, RemovesAll]
  constructor
  · rintro spared front system packages back after split ⟨made, run⟩ ready
    exact spared _ ⟨system, packages, ⟨front, back, after, made, split, run, ready⟩, rfl⟩
  · rintro shares call ⟨system, packages, ⟨front, back, after, made, split, run, ready⟩, rfl⟩
    exact shares front system packages back after split ⟨made, run⟩ ready

theorem directory_intact_iff (found : bundleToRemove env request before = some layout) :
    ((removeRequest env request before).1.item.ok = false → ∀ root, (removeRequest env request before).1.root = some root →
        ∀ path, root <+: path → (removeRequest env request before).1.after path =
          (removeRequest env request before).1.before path) ↔
      DeletesWhole env request before layout := by
  cases removed : (dependencyRun env request before layout).1 with
  | false =>
      rw [removeRequest_kept found removed]
      refine iff_of_true (fun _ _ _ _ _ => rfl) ?_
      rintro after message left ⟨calls, run⟩
      rw [dependencyRun, run] at removed
      cases removed
  | true =>
      rw [removeRequest_deleting found removed]
      have unchanged : (dependencyRun env request before layout).2.1.contents = before.contents :=
        removeDependencies_contents
      have reached : RemovesAll env request (dependencyGroups env layout) before
          (dependencyRun env request before layout).2.1 :=
        ⟨_, Prod.ext removed rfl⟩
      cases deleted : env.removeAll ((dependencyRun env request before layout).2.1.with
          (env.unloadPlugin (dependencyRun env request before layout).2.1 (env.resolvePluginName request.system)))
          layout.rootDir with
      | none =>
          refine iff_of_true (fun failed => ?_) ?_
          · simp only [deletionRun, deleteBundle, deleted] at failed
            cases failed
          · rintro after message left ⟨calls, run⟩ error
            have same : (dependencyRun env request before layout).2.1 = after := by rw [dependencyRun, run]
            rw [← same, deleted] at error
            cases error
      | some failure =>
          obtain ⟨message, left⟩ := failure
          have result : (deletionRun env request before layout).1.ok = false ∧
              (deletionRun env request before layout).2.contents = clearBelow layout.rootDir before.contents left := by
            simp only [deletionRun, deleteBundle, deleted, with_contents, unchanged, and_self]
          simp only [result, Option.some.injEq, forall_eq', true_implies]
          constructor
          · rintro intact after again other ⟨calls, run⟩ error path below
            have same : (dependencyRun env request before layout).2.1 = after := by rw [dependencyRun, run]
            rw [← same, deleted] at error
            cases error
            exact (clearBelow_apply below).symm.trans (intact path below)
          · intro whole path below
            exact (clearBelow_apply below).trans (whole _ message left reached deleted path below)

/-! ## Whole runs -/

theorem removeRequests_steps (env : RemovalEnv σ τ) (requests : List Request) (state : RemovalState σ τ) :
    (removeRequests env requests state).1 =
      (statesBefore env requests state).map fun handled => (removeRequest env handled.1 handled.2).1 := by
  induction requests generalizing state with
  | nil => rfl
  | cons request requests ih =>
      simp only [removeRequests, statesBefore, List.map_cons]
      rw [ih]

/-- A step spares what others need exactly when its bundle shares no dependency that gets
its turn, and its directory is not left half deleted. -/
theorem removeRequest_spares_iff :
    (removeRequest env request before).1.Spares env requests ↔
      ∀ layout, bundleToRemove env request before = some layout →
        SharesNothing env requests request before layout ∧ DeletesWhole env request before layout := by
  cases found : bundleToRemove env request before with
  | none =>
      obtain ⟨calls, unchanged⟩ := removeRequest_idle found
      refine iff_of_true ⟨?_, fun _ _ _ _ _ => by rw [unchanged]⟩ (by simp)
      rw [calls]
      simp
  | some layout =>
      simp only [Option.some.injEq, forall_eq']
      rw [← dependencies_spared_iff found, ← directory_intact_iff found]
      exact ⟨fun spares => ⟨spares.dependencies, spares.intact⟩, fun both => ⟨both.1, both.2⟩⟩

end Facts

/-! ## A shared dependency -/

/-- Two bundles, `alpha` and `beta`, that both depend on `apt:curl`; every plugin obliges. -/
def curlUsers : RemovalEnv Unit PluginBundleManifest where
  resolvePluginName := toLowerCopy
  pluginDirectory := ["", "plugins"]
  currentPath := none
  absolute := id
  probeDirectory _ := true
  readBundle manifest := some ("wrapper", manifest)
  dryRun := false
  getPlugin _ _ := (true, ())
  loadPlugin _ _ := (true, ())
  remove _ _ _ _ := (true, ())
  unloadPlugin _ _ := ()
  ensurePluginsDiscovered _ _ := ()
  removeAll _ _ := none

def curlUsersInstalled : RemovalState Unit PluginBundleManifest where
  contents path :=
    if path = ["", "plugins", "alpha"] ∨ path = ["", "plugins", "beta"] then
      some { dependencySpecs := ["apt:curl"] }
    else none
  world := ()

def removeAlpha : Request := { action := .remove, system := "alpha" }

def curl : Package := { action := .remove, system := "apt", name := "curl" }

def wrapperAt (name : String) : PluginBundleLayout :=
  { rootDir := ["", "plugins", name], name := "wrapper", manifest := { dependencySpecs := ["apt:curl"] } }

end ReqPack.Workflow
