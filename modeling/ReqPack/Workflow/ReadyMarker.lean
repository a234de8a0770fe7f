import ReqPack.Executor.HostSteps
import ReqPack.Workflow.Requirements
import ReqPack.Planner.Plan

/-! # The ready marker of a plugin

Once the planner found all requirements of a plugin installed it leaves a marker file
beside the bundle and never asks again.  Nothing takes the marker away, so it
is right only for as long as ReqPack takes away no package it vouches for.
-/

namespace ReqPack.Workflow

open ReqPack.Data ReqPack.Core ReqPack.Scheduler ReqPack.Planner ReqPack.Executor

variable {σ : Type}

/-- What all runs have in common. -/
structure Installation (σ : Type) where
  files : BundleFiles
  proxies : Proxies
  host : Host σ
  config : ExecutionConfig := {}

/-- What lasts from run to run: what the executor works on, and the systems with a
marker file. -/
structure Machine (σ : Type) where
  world : World σ
  ready : List String := []

namespace Installation

variable (installation : Installation σ)

/-- What a planner sees with these markers. -/
def plannerEnv (plugins : σ) (ready : List String) : PlannerEnv where
  resolvePluginName := installation.host.resolvePluginName
  gatewayExists := installation.host.isGatewaySystem
  bundles := installation.files.bundles
  pluginLoads := fun system =>
    installation.host.hasPlugin plugins system && installation.host.loadPlugin plugins system
  getMissingPackages := fun system packages =>
    (installation.host.getMissingPackages system packages plugins).1
  requirementsProvisioned := fun system => ready.contains system

/-- The packages `pluginRequirementsSatisfied` asks for. -/
def requirements (system : String) : List Package :=
  match (installation.files.bundles.find? fun entry => entry.1 == system).map (·.2) with
  | none => []
  | some bundle =>
      (bundle.dependencyPackages ++ bundle.projectPackages).map fun dependency =>
        let normalized := plannerNormalizeDependency dependency system
        if normalized.system.isEmpty then normalized
        else { normalized with system := installation.host.resolvePluginName normalized.system }

/-- The system whose marker decides about a request. -/
def markedSystem (request : Request) : String :=
  installation.host.resolvePluginName (installation.host.resolvePluginName request.system)

/-- `buildDag` asks `shouldInstallPluginDependencies` about the request. -/
def asksForDependencies (request : Request) : Bool :=
  request.action == .install && !installation.host.isGatewaySystem request.system

/-- The markers behind a request; `written` tells where a file could be written. -/
def provision (plugins : σ) (written : String → Bool) (ready : List String) (request : Request) :
    List String :=
  let system := installation.markedSystem request
  if installation.asksForDependencies request && !ready.contains system &&
      pluginRequirementsSatisfied (installation.plannerEnv plugins ready) system && written system then
    ready ++ [system]
  else ready

/-- The requests `buildDag` gets for a plan; none in an ensure plan. -/
def dagRequests (plugins : σ) (ready : List String) (requests : List Request) : List Request :=
  match resolveRequests installation.proxies requests with
  | .error _ => []
  | .ok expandedRequests =>
      let env := installation.plannerEnv plugins ready
      let filteredRequests := filterRequestedPackages env expandedRequests
      if plannerContainsOnlyAction filteredRequests .ensure then [] else filteredRequests

/-- One run of the planner or of the executor. -/
inductive Step : Machine σ → Machine σ → Prop where
  | plan (machine : Machine σ) (requests : List Request) (written : String → Bool) (plugins : σ)
      (asked : Relation.ReflTransGen (fun before after => ∃ system packages,
        after = (installation.host.getMissingPackages system packages before).2)
        machine.world.plugins plugins) :
      Step machine
        { world := { machine.world with plugins := plugins }
          ready := (installation.dagRequests machine.world.plugins machine.ready requests).foldl
            (installation.provision machine.world.plugins written) machine.ready }
  | execute (machine : Machine σ) (inputAlreadyFiltered : Bool) (graph : Graph) (script : ExecuteScript)
      (result : ExecuteResult σ)
      (done : execute installation.host installation.config inputAlreadyFiltered graph script machine.world =
        some result) :
      Step machine { machine with world := result.world }

end Installation

section Truth

def PluginCall.system : PluginCall → String
  | .install system _ _ => system
  | .installLocal system _ _ => system
  | .remove system _ _ => system
  | .update system _ _ => system
  | .pack system _ _ => system

/-- The call is about this package in another version, or about a file that may hold it. -/
def replaces (call : PluginCall) (package : Package) : Bool :=
  match call with
  | .install _ _ packages =>
      packages.any fun named => named.name == package.name && named.version != package.version
  | .update _ _ packages => packages.any fun named => named.name == package.name
  | .installLocal _ _ _ => true
  | _ => false

/-- A call after which the package may be gone: it removes a package of that name, or
replaces it while a certain version is wanted. -/
def takesAway (host : Host σ) (call : PluginCall) (package : Package) : Bool :=
  host.resolvePluginName (PluginCall.system call) == host.resolvePluginName package.system &&
    ((match call with
      | .remove _ _ packages => packages.any fun named => named.name == package.name
      | _ => false) ||
      !package.version.isEmpty && replaces call package)

/-- The plugin of the package is there and does not report it missing. -/
def ReportedInstalled (host : Host σ) (plugins : σ) (package : Package) : Prop :=
  host.hasPlugin plugins package.system = true ∧ host.loadPlugin plugins package.system = true ∧
    (host.getMissingPackages (host.resolvePluginName package.system) [package] plugins).1 = []

/-- Plugins answer for each package by itself, and what is installed and there stays so unless
a call takes it away. -/
structure Truthful (host : Host σ) : Prop where
  answers : ∀ system packages plugins, (∀ package ∈ packages, package.action = .install ∧
      host.resolvePluginName package.system = system) →
    ∀ package ∈ packages, package ∉ (host.getMissingPackages system packages plugins).1 →
      (host.getMissingPackages system [package] plugins).1 = []
  keeps : ∀ before after, HostStep host before after → ∀ package, package.action = .install →
    (∀ call ok, after.2 = before.2 ++ [(call, ok)] → takesAway host call package = false) →
    ReportedInstalled host before.1 package → ReportedInstalled host after.1 package

end Truth

section Kept

variable {host : Host σ}

theorem HostStep.calls {before after : σ × List (PluginCall × Bool)} (step : HostStep host before after) :
    after.2 = before.2 ∨ ∃ call ok, after.2 = before.2 ++ [(call, ok)] := by
  cases step with
  | performed call plugins calls => exact Or.inr ⟨call, _, rfl⟩
  | gateway => exact Or.inl rfl
  | missing => exact Or.inl rfl
  | events => exact Or.inl rfl
  | listed => exact Or.inl rfl

/-- Along steps of the host a package stays installed unless one of the new calls takes it away. -/
theorem Truthful.along (truthful : Truthful host) {package : Package} (install : package.action = .install)
    {before after : σ × List (PluginCall × Bool)} (run : Relation.ReflTransGen (HostStep host) before after)
    (reported : ReportedInstalled host before.1 package) :
    ∃ made, after.2 = before.2 ++ made ∧
      ((∀ entry ∈ made, takesAway host entry.1 package = false) →
        ReportedInstalled host after.1 package) := by
  induction run with
  | refl => exact ⟨[], by simp, fun _ => reported⟩
  | tail _ step ih =>
      obtain ⟨made, grown, kept⟩ := ih
      rcases HostStep.calls step with same | ⟨call, ok, called⟩
      · refine ⟨made, same.trans grown, fun harmless => ?_⟩
        refine truthful.keeps _ _ step package install (fun call ok called => ?_) (kept harmless)
        simp [same] at called
      · refine ⟨made ++ [(call, ok)], by rw [called, grown, List.append_assoc], fun harmless => ?_⟩
        refine truthful.keeps _ _ step package install (fun other result also => ?_)
          (kept fun entry member => harmless entry (List.mem_append_left _ member))
        rw [called, List.append_cancel_left_eq] at also
        cases also
        exact harmless (call, ok) (by simp)

variable {installation : Installation σ}

theorem requirements_action (plugins : σ) {system : String} {dependency : Package}
    (member : dependency ∈ installation.requirements system) : dependency.action = .install := by
  unfold Installation.requirements at member
  split at member
  · simp at member
  · rename_i bundle found
    obtain ⟨declared, listed, rfl⟩ := List.mem_map.mp member
    have action := @BundleFiles.package_action installation.files (installation.plannerEnv plugins [])
      system bundle rfl found declared listed
    have normalized : (plannerNormalizeDependency declared system).action = .install := by
      simp only [plannerNormalizeDependency, action, reduceCtorEq, if_false]
      split
      · rfl
      · exact action
    dsimp only
    split
    · exact normalized
    · exact normalized

theorem pluginRequirementsSatisfied_requirements {plugins : σ} {ready : List String} {system : String}
    (satisfied : pluginRequirementsSatisfied (installation.plannerEnv plugins ready) system = true) :
    filterMissingDependencies (installation.plannerEnv plugins ready) (installation.requirements system) =
      [] := by
  unfold pluginRequirementsSatisfied at satisfied
  unfold Installation.requirements
  split at satisfied
  · simp at satisfied
  · rename_i bundle found
    have known : (installation.files.bundles.find? fun entry => entry.1 == system).map (·.2) = some bundle :=
      found
    rw [known]
    exact List.isEmpty_iff.mp satisfied

/-- Requirements that were found satisfied are reported installed. -/
theorem reported_of_satisfied (truthful : Truthful installation.host) {plugins : σ} {ready : List String}
    {system : String}
    (satisfied : pluginRequirementsSatisfied (installation.plannerEnv plugins ready) system = true)
    {dependency : Package} (required : dependency ∈ installation.requirements system) :
    ReportedInstalled installation.host plugins dependency := by
  have nothing := pluginRequirementsSatisfied_requirements satisfied
  simp only [filterMissingDependencies, List.append_eq_nil_iff, List.filter_eq_nil_iff,
    List.flatMap_eq_nil_iff] at nothing
  obtain ⟨assumed, answered⟩ := nothing
  have loads := assumed dependency required
  simp only [assumedMissing, Installation.plannerEnv, Bool.or_eq_true, Bool.not_eq_true', not_or,
    Bool.not_eq_true, Bool.not_eq_false, Bool.and_eq_true] at loads
  have asked : dependency ∈ (installation.requirements system).filter fun other =>
      !assumedMissing (installation.plannerEnv plugins ready) other := by
    rw [List.mem_filter]
    exact ⟨required, by simpa using assumed dependency required⟩
  generalize batched : ((installation.requirements system).filter fun other =>
    !assumedMissing (installation.plannerEnv plugins ready) other) = batch at asked answered
  have none : (installation.host.getMissingPackages (installation.host.resolvePluginName dependency.system)
      (batch.filter fun other => installation.host.resolvePluginName other.system ==
        installation.host.resolvePluginName dependency.system) plugins).1 = [] := by
    refine answered _ ((stableSort_perm textLess _).mem_iff.mpr ?_)
    exact List.mem_dedup.mpr (List.mem_map.mpr ⟨dependency, asked, rfl⟩)
  have listed : dependency ∈ batch.filter fun other => installation.host.resolvePluginName other.system ==
      installation.host.resolvePluginName dependency.system := List.mem_filter.mpr ⟨asked, by simp⟩
  refine ⟨loads.2.1, loads.2.2, ?_⟩
  refine truthful.answers _ _ plugins (fun other member => ?_) dependency listed (by rw [none]; simp)
  rw [List.mem_filter, ← batched] at member
  exact ⟨requirements_action plugins (List.mem_of_mem_filter member.1), by simpa using member.2⟩

end Kept

section Runs

variable {installation : Installation σ}

/-- Every marker stands for requirements that are reported installed. -/
def Vouched (installation : Installation σ) (plugins : σ) (ready : List String) : Prop :=
  ∀ system ∈ ready, ∀ dependency ∈ installation.requirements system,
    ReportedInstalled installation.host plugins dependency

/-- No call of the step takes a package away from a system with a marker. -/
def Spares (installation : Installation σ) (machine after : Machine σ) : Prop :=
  ∀ system ∈ machine.ready, ∀ dependency ∈ installation.requirements system,
    ∀ entry ∈ after.world.calls.drop machine.world.calls.length,
      takesAway installation.host entry.1 dependency = false

theorem provision_vouched (truthful : Truthful installation.host) {plugins : σ} {written : String → Bool}
    {ready : List String} (vouched : Vouched installation plugins ready) (request : Request) :
    Vouched installation plugins (installation.provision plugins written ready request) := by
  unfold Installation.provision
  dsimp only
  split
  · rename_i satisfied
    simp only [Bool.and_eq_true] at satisfied
    intro system member dependency required
    rcases List.mem_append.mp member with old | new
    · exact vouched system old dependency required
    · rw [List.mem_singleton.mp new] at required
      exact reported_of_satisfied truthful satisfied.1.2 required
  · exact vouched

theorem foldl_provision_vouched (truthful : Truthful installation.host) {plugins : σ}
    {written : String → Bool} {ready : List String} (vouched : Vouched installation plugins ready)
    (requests : List Request) :
    Vouched installation plugins (requests.foldl (installation.provision plugins written) ready) := by
  induction requests generalizing ready with
  | nil => exact vouched
  | cons request requests ih => exact ih (provision_vouched truthful vouched request)

/-- Questions take nothing away. -/
theorem Vouched.asked (truthful : Truthful installation.host) {plugins after : σ} {ready : List String}
    (vouched : Vouched installation plugins ready)
    (asked : Relation.ReflTransGen (fun before after => ∃ system packages,
      after = (installation.host.getMissingPackages system packages before).2) plugins after) :
    Vouched installation after ready := by
  induction asked with
  | refl => exact vouched
  | tail _ step ih =>
      rename_i before _ _
      obtain ⟨system, packages, rfl⟩ := step
      intro marked member dependency required
      refine truthful.keeps (before, []) (_, []) (.missing system packages before []) dependency
        (requirements_action before required) (fun call ok called => ?_) (ih marked member dependency required)
      simp at called

/-- One run keeps every marker right if it spares what the markers stand for. -/
theorem step_vouched (truthful : Truthful installation.host) {machine after : Machine σ}
    (step : installation.Step machine after) (spares : Spares installation machine after)
    (vouched : Vouched installation machine.world.plugins machine.ready) :
    Vouched installation after.world.plugins after.ready := by
  cases step with
  | plan requests written plugins asked =>
      exact Vouched.asked truthful (foldl_provision_vouched truthful vouched _) asked
  | execute inputAlreadyFiltered graph script result done =>
      intro system member dependency required
      have install := requirements_action machine.world.plugins required
      obtain ⟨made, grown, kept⟩ := truthful.along install (execute_hostRun done)
        (vouched system member dependency required)
      refine kept fun entry called => spares system member dependency required entry ?_
      have new : result.world.calls = machine.world.calls ++ made := grown
      rw [new, List.drop_left]
      exact called

/-- A plan handles the request without the dependencies of its system, because
`shouldInstallPluginDependencies` returned false when the request was reached. -/
def LeavesOutDependencies (installation : Installation σ) (machine : Machine σ) (requests : List Request)
    (request : Request) : Prop :=
  ∃ front back written,
    installation.dagRequests machine.world.plugins machine.ready requests = front ++ request :: back ∧
    installation.asksForDependencies request = true ∧
    shouldInstallPluginDependencies (installation.plannerEnv machine.world.plugins
        (front.foldl (installation.provision machine.world.plugins written) machine.ready))
      (installation.host.resolvePluginName request.system) = false

/-- As long as no run removes or replaces a package that a system with a ready marker
requires, dependencies are left out of a plan only where all of them are installed. -/
theorem ready_marker_hides_nothing (truthful : Truthful installation.host) {start machine : Machine σ}
    (unmarked : start.ready = [])
    (reached : Relation.ReflTransGen (fun before after =>
      installation.Step before after ∧ Spares installation before after) start machine)
    {requests : List Request} {request : Request}
    (left : LeavesOutDependencies installation machine requests request) :
    ∀ dependency ∈ installation.requirements (installation.markedSystem request),
      ReportedInstalled installation.host machine.world.plugins dependency := by
  have vouched : Vouched installation machine.world.plugins machine.ready := by
    clear left
    induction reached with
    | refl =>
        intro system member
        simp [unmarked] at member
    | tail _ step ih => exact step_vouched truthful step.1 step.2 ih
  obtain ⟨front, back, written, _, _, refused⟩ := left
  have now := @foldl_provision_vouched σ installation truthful _ written _ vouched front
  intro dependency required
  simp only [shouldInstallPluginDependencies, Bool.and_eq_false_iff, Bool.not_eq_false'] at refused
  rcases refused with provisioned | satisfied
  · exact now _ (List.contains_iff_mem.mp provisioned) dependency required
  · exact reported_of_satisfied truthful satisfied required

end Runs

section Examples

/-- Plugins that know systems and names, and do what they are asked to do. -/
def listingHost : Host (List (String × String)) where
  resolvePluginName := id
  isGatewaySystem := fun _ => false
  executeGatewayRequest := fun _ _ _ plugins => ([], plugins)
  hasPlugin := fun _ _ => true
  loadPlugin := fun _ _ => true
  supportsPack := fun _ _ => false
  perform := fun call plugins =>
    match call with
    | .install system _ packages => (true, plugins ++ packages.map fun package => (system, package.name))
    | .remove system _ packages => (true, plugins.filter fun entry =>
        !(entry.1 == system && packages.any fun package => package.name == entry.2))
    | _ => (true, plugins)
  getMissingPackages := fun _ packages plugins =>
    (packages.filter fun package =>
      plugins.contains (package.system, package.name) == decide (package.action = .remove), plugins)
  takeRecentEvents := fun _ plugins => ([], plugins)
  listPackages := fun system plugins =>
    ((plugins.filter fun entry => entry.1 == system).map fun entry => (entry.2, "1"), plugins)
  bundleDependencies := fun _ system =>
    if system = "pip" then some [{ action := .install, system := "apt", name := "python" }] else none
  getRequirements := fun _ _ => []
  now := fun _ => "t"
  actionCode := fun _ => 0

theorem listingHost_reports {plugins : List (String × String)} {package : Package}
    (install : package.action = .install) :
    ReportedInstalled listingHost plugins package ↔ (package.system, package.name) ∈ plugins := by
  simp [ReportedInstalled, listingHost, List.filter_cons, install]

theorem listingHost_truthful : Truthful listingHost where
  answers := by
    intro system packages plugins asked package member present
    have install := (asked package member).1
    have known : (package.system, package.name) ∈ plugins := by
      simpa [listingHost, member, install] using present
    simp [listingHost, known, install]
  keeps := by
    intro before after step package install spared reported
    rw [listingHost_reports install] at reported ⊢
    cases step with
    | performed call plugins calls =>
        have harmless := spared call _ rfl
        cases call with
        | install system context packages => exact List.mem_append_left _ reported
        | installLocal => exact reported
        | update => exact reported
        | pack => exact reported
        | remove system context packages =>
            refine List.mem_filter.mpr ⟨reported, ?_⟩
            simp only [takesAway, PluginCall.system, listingHost, id_eq, replaces, Bool.and_false,
              Bool.or_false] at harmless
            rw [Bool.beq_comm, harmless]
            rfl
    | gateway => exact reported
    | missing => exact reported
    | events => exact reported
    | listed => exact reported

/-- The pip plugin requires the interpreter of apt. -/
def pipInstallation : Installation (List (String × String)) where
  files := pipFiles []
  proxies :=
    { enableProxyExpansion := false
      resolvePluginName := id
      loadPlugin := fun _ => true
      supportsProxyResolution := fun _ => false
      resolveProxyRequest := fun _ _ => none
      targets := fun _ => [] }
  host := listingHost

def pythonInstalled : Machine (List (String × String)) where
  world := { plugins := [("apt", "python")] }

/-- The planner found the interpreter. -/
def pipReady : Machine (List (String × String)) :=
  { pythonInstalled with ready := ["pip"] }

theorem step_pipReady : pipInstallation.Step pythonInstalled pipReady := by
  have ready : (pipInstallation.dagRequests pythonInstalled.world.plugins pythonInstalled.ready
      numpyRequest).foldl (pipInstallation.provision pythonInstalled.world.plugins fun _ => true)
        pythonInstalled.ready = ["pip"] := by decide
  have step := @Installation.Step.plan _ pipInstallation pythonInstalled numpyRequest
    (fun _ => true) pythonInstalled.world.plugins Relation.ReflTransGen.refl
  rw [ready] at step
  exact step

def numpyRequested : Request := { action := .install, system := "pip", packages := ["numpy"] }

def scipyRequested : Request := { action := .install, system := "pip", packages := ["scipy"] }

def scipyRequest : List Request := [scipyRequested]

def numpyInstall : Graph where
  packages := [{ action := .install, system := "pip", name := "numpy", directRequest := true }]
  edges := []
  bounded := by decide

def pythonRemoval : Graph where
  packages := [{ action := .remove, system := "apt", name := "python", directRequest := true }]
  edges := []
  bounded := by decide

/-- Where the interpreter stays, the next plan is right to leave it out. -/
theorem ready_marker_hides_nothing_pip :
    ∃ machine, pipInstallation.Step pipReady machine ∧ machine.world.calls.length = 1 ∧
      LeavesOutDependencies pipInstallation machine scipyRequest scipyRequested ∧
      ∀ dependency ∈ pipInstallation.requirements "pip",
        ReportedInstalled listingHost machine.world.plugins dependency := by
  have evaluated : (execute listingHost {} false numpyInstall { sorted := [0], orphanRounds := 1 }
      pipReady.world).any (fun result : ExecuteResult (List (String × String)) =>
        decide (result.world.plugins = [("apt", "python"), ("pip", "numpy")] ∧
          result.world.calls.length = 1 ∧
          result.world.calls.all (fun entry => (pipInstallation.requirements "pip").all fun dependency =>
            !takesAway listingHost entry.1 dependency) = true)) = true := by decide
  obtain ⟨result, done, holds⟩ := (Option.any_eq_true _ _).mp evaluated
  obtain ⟨plugins, calls, harmless⟩ := of_decide_eq_true holds
  have step : pipInstallation.Step pipReady { pipReady with world := result.world } :=
    .execute pipReady false numpyInstall _ result done
  have left : LeavesOutDependencies pipInstallation { pipReady with world := result.world } scipyRequest
      scipyRequested := by
    refine ⟨[], [], fun _ => true, ?_, rfl, ?_⟩
    · dsimp only
      rw [plugins]
      decide
    · dsimp only
      rw [plugins]
      decide
  have unmarked : Spares pipInstallation pythonInstalled pipReady := by
    intro system member
    simp [pythonInstalled] at member
  have spares : Spares pipInstallation pipReady { pipReady with world := result.world } := by
    intro system member dependency required entry called
    have same : system = "pip" := by simpa [pipReady] using member
    rw [same] at required
    have new := List.all_eq_true.mp harmless entry (List.mem_of_mem_drop called)
    have spared : takesAway listingHost entry.1 dependency = false := by
      simpa using List.all_eq_true.mp new dependency required
    exact spared
  refine ⟨_, step, calls, left, ?_⟩
  exact @ready_marker_hides_nothing _ pipInstallation listingHost_truthful pythonInstalled _ rfl
    ((Relation.ReflTransGen.single ⟨step_pipReady, unmarked⟩).tail ⟨step, spares⟩) _ _ left

/-- Once the interpreter is removed, the marker keeps it out of the next plan. -/
theorem removed_requirement_hidden :
    Truthful pipInstallation.host ∧ pythonInstalled.ready = [] ∧
      ∃ machine, Relation.ReflTransGen pipInstallation.Step pythonInstalled machine ∧
        LeavesOutDependencies pipInstallation machine numpyRequest numpyRequested ∧
        ∃ dependency ∈ pipInstallation.requirements (pipInstallation.markedSystem numpyRequested),
          ¬ ReportedInstalled pipInstallation.host machine.world.plugins dependency := by
  have evaluated : (execute listingHost {} false pythonRemoval { sorted := [0], orphanRounds := 1 }
      pipReady.world).any (fun result : ExecuteResult (List (String × String)) =>
        decide (result.world.plugins = [])) = true := by decide
  obtain ⟨result, done, holds⟩ := (Option.any_eq_true _ _).mp evaluated
  have plugins := of_decide_eq_true holds
  have step : pipInstallation.Step pipReady { pipReady with world := result.world } :=
    .execute pipReady false pythonRemoval _ result done
  refine ⟨listingHost_truthful, rfl, _, (Relation.ReflTransGen.single step_pipReady).tail step,
    ⟨[], [], fun _ => true, ?_, rfl, ?_⟩, { action := .install, system := "apt", name := "python" }, by decide, ?_⟩
  · dsimp only
    rw [plugins]
    decide
  · dsimp only
    rw [plugins]
    decide
  · dsimp only
    rw [plugins]
    intro reported
    have there := (listingHost_reports rfl).mp reported
    simp at there

end Examples

end ReqPack.Workflow
