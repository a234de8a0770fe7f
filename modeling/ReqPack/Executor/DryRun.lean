import ReqPack.Executor.ExecuteCases

/-! # What a dry run leaves behind

The dry run ends in one branch of `executeTaskGroup`; the stages before and behind
it do not ask.  They are harmless only while there is no interrupted run to pick
up and no record they would write into the installed state.
-/

namespace ReqPack.Executor

open ReqPack.Data ReqPack.Core ReqPack.Scheduler

variable {σ : Type} {host : Host σ} {config : ExecutionConfig}

/-- Nothing that outlives a call has changed: no entry or owner of the installed
state, no plugin was asked to change its system, and the interrupted run is still
there with nothing more of it done. -/
structure NoLastingEffect (before after : World σ) : Prop where
  installed : after.installed = before.installed
  calls : after.calls = before.calls
  activeRun : ∀ runId run, before.journal.getActiveRun = some (runId, run) →
    after.journal.activeRun = some runId
  items : ∀ runId run, before.journal.getActiveRun = some (runId, run) →
    ∀ item ∈ after.journal.items runId, item.status.isDone = true →
      ∃ old ∈ before.journal.items runId, old.package = item.package ∧ old.status.isDone = true

/-- A dry run that neither meets an interrupted run nor has anything to track. -/
def DryRunInert (config : ExecutionConfig) (graph : Graph) (journal : Journal) : Prop :=
  (config.useTransactionDb = true ∧
    ∃ runId run, journal.getActiveRun = some (runId, run) ∧ run.state = .committed) ∨
  ((config.useTransactionDb = true → journal.getActiveRun = none) ∧
    (tracksInstalled config = true → ∀ package ∈ graph.packages, isMutatingAction package.action = false))

/-- The world as far as a dry run of groups keeps it. -/
structure SameStores (before after : World σ) : Prop where
  installed : after.installed = before.installed
  calls : after.calls = before.calls
  journal : after.journal = before.journal

namespace SameStores

theorem refl (world : World σ) : SameStores world world := ⟨rfl, rfl, rfl⟩

theorem trans {first second third : World σ} (earlier : SameStores first second)
    (later : SameStores second third) : SameStores first third :=
  ⟨later.installed.trans earlier.installed, later.calls.trans earlier.calls,
    later.journal.trans earlier.journal⟩

end SameStores

theorem TouchesPlugins.sameStores {before after : World σ} (touches : TouchesPlugins before after) :
    SameStores before after := by
  unfold TouchesPlugins at touches
  rw [touches]
  exact ⟨rfl, rfl, rfl⟩

/-- In a dry run executing a group changes nothing but the gateway. -/
theorem executeTaskGroup_sameStores (dry : config.dryRun = true) (runId : String) (group : TaskGroup)
    (world : World σ) : SameStores world (executeTaskGroup host config runId group world).2 := by
  have execution := executeTaskGroup_execution host config runId group world
  generalize (executeTaskGroup host config runId group world).1 = records at execution
  generalize (executeTaskGroup host config runId group world).2 = after at execution
  cases execution with
  | nothing reason => exact .refl world
  | refused message system => exact .refl world
  | dryRun _ system => exact .refl world
  | gateway ok message plugins system => exact ⟨rfl, rfl, rfl⟩
  | dispatched wet => simp [dry] at wet

section Untracked

/-- No record of the list speaks of a change. -/
def Unchanging (records : List TransactionRecord) : Prop :=
  ∀ record ∈ records, isMutatingAction record.action = false

variable {records : List TransactionRecord} {world : World σ}

theorem refreshInstalledState_idle (idle : tracksInstalled config = true → Unchanging records) :
    refreshInstalledState host config records world = ([], world) := by
  cases tracked : tracksInstalled config with
  | true =>
      have none : records.filter refreshes = [] := by
        rw [List.filter_eq_nil_iff]
        intro record member refreshed
        have still := idle tracked record member
        simp only [refreshes, actionUsesDesiredStateFilter, Bool.and_eq_true] at refreshed
        simp [isMutatingAction, refreshed.1.2] at still
      simp [refreshInstalledState, tracked, refreshTargets, none, stableSort]
  | false => simp [refreshInstalledState, tracked]

/-- Records that speak of no change leave nothing but events. -/
theorem recordHistory_idle (idle : tracksInstalled config = true → Unchanging records) :
    recordHistory host config records world =
      if config.historyManager then appendEvents config records world else world := by
  cases managed : config.historyManager with
  | false => simp [recordHistory, managed]
  | true =>
      simp only [recordHistory, managed, if_true, refreshInstalledState_idle idle]
      cases tracked : config.trackInstalled with
      | true =>
          have none : (records.filter fun record =>
              isMutatingAction record.action && !([] : List String).contains record.system) = [] := by
            rw [List.filter_eq_nil_iff]
            intro record member
            simp [idle (by simp [tracksInstalled, managed, tracked]) record member]
          rw [none, List.foldl_nil]
      | false =>
          refine List.foldl_fixed' (fun record => ?_) _
          simp [updateInstalledRecord, tracked]

theorem reconcileInstalledOwnership_idle {allTaskGroups taskGroups : List TaskGroup}
    (idle : tracksInstalled config = true → Unchanging records ∧
      ∀ package ∈ collectPackages allTaskGroups, isMutatingAction package.action = false) :
    reconcileInstalledOwnership host config allTaskGroups taskGroups records world = world := by
  have installs : ∀ action, isMutatingAction action = false → isInstallLikeAction action = false := by
    intro action still
    cases action <;> simp_all [isMutatingAction, isInstallLikeAction]
  cases tracked : tracksInstalled config with
  | false => simp [reconcileInstalledOwnership, tracked]
  | true =>
      obtain ⟨unchanging, packages⟩ := idle tracked
      have succeeded : (records.filter fun record =>
          record.status == .success && isInstallLikeAction record.action) = [] := by
        rw [List.filter_eq_nil_iff]
        intro record member
        simp [installs _ (unchanging record member)]
      have satisfied : ((collectPackages allTaskGroups).filter fun package =>
          package.directRequest && isInstallLikeAction package.action &&
            !(collectPackages taskGroups).any fun candidate => samePackage candidate package) = [] := by
        rw [List.filter_eq_nil_iff]
        intro package member
        simp [installs _ (packages package member)]
      simp only [reconcileInstalledOwnership, tracked, if_true, succeeded, satisfied]
      rfl

theorem removals_idle (unchanging : Unchanging records) : records.filter isSuccessfulRemoval = [] := by
  rw [List.filter_eq_nil_iff]
  intro record member removal
  have still := unchanging record member
  simp only [isSuccessfulRemoval, isRemoveAction, Bool.and_eq_true, beq_iff_eq] at removal
  simp [isMutatingAction, removal.2] at still

end Untracked

section Calls

theorem openRun_sameStores {groups : List TaskGroup} {world opened : World σ}
    (created : openRun host config groups world = some opened) :
    opened.installed = world.installed ∧ opened.calls = world.calls ∧
      (config.useTransactionDb = false → opened.journal = world.journal) := by
  have frame := openRun_world created
  refine ⟨by rw [frame], by rw [frame], fun off => ?_⟩
  simp only [openRun, off, Bool.false_and, Bool.false_eq_true, if_false, Option.some.injEq] at created
  rw [created]

theorem executeGraph_dryRun (dry : config.dryRun = true) {inputAlreadyFiltered : Bool} {graph : Graph}
    {script : ExecuteScript} {world : World σ} {result : ExecuteResult σ}
    (still : tracksInstalled config = true →
      ∀ package ∈ graph.packages, isMutatingAction package.action = false)
    (done : executeGraph host config inputAlreadyFiltered graph script world = some result) :
    result.world.installed = world.installed ∧ result.world.calls = world.calls ∧
      (config.useTransactionDb = false → result.world.journal = world.journal) := by
  have planned :=
    (plannedGroups_touches host config inputAlreadyFiltered graph script.sorted world).sameStores
  obtain ⟨all, groups, ⟨_, _, _, left, _⟩ | ⟨opened, run, created, ran, concluded⟩⟩ := executeGraph_cases done
  · rw [left]
    exact ⟨planned.installed, planned.calls, fun _ => planned.journal⟩
  obtain ⟨installed, calls, journal⟩ := openRun_sameStores created
  obtain ⟨same, _⟩ := runPlans_worlds SameStores.refl (fun _ _ _ => SameStores.trans)
    (executeTaskGroup_sameStores dry opened.activeRunId) ran
  obtain ⟨cleaned, removed, records, _, _, _, left⟩ := concludeRun_cases concluded
  have unchanging : tracksInstalled config = true → Unchanging run.records := by
    intro tracked record member
    have main := mainPass_of_stages created ran concluded
    rw [← main.records] at member
    obtain ⟨group, listed, _, _, _, execution, present⟩ := main.record_execution member
    obtain ⟨package, _, status, message, rfl, _⟩ := execution.record_of present
    rw [groups] at listed
    exact @plannedGroup_action σ host config (isMutatingAction · = false) rfl _ _ _ _ (still tracked) _ listed
  have idle : SameStores run.world cleaned := by
    rw [reconcileInstalledOwnership_idle,
      subtractDependencyOwnership_idle fun tracked => removals_idle (unchanging tracked)] at removed
    · rw [(removeOrphanedDependencies_idle (fun tracked => removals_idle (unchanging tracked)) removed).2,
        recordHistory_idle unchanging]
      unfold appendEvents
      split
      · split <;> exact ⟨rfl, rfl, rfl⟩
      · exact ⟨rfl, rfl, rfl⟩
    · intro tracked
      refine ⟨unchanging tracked, fun package member => ?_⟩
      obtain ⟨group, known, listed⟩ := List.mem_flatMap.mp member
      rw [all] at known
      exact @createFromGraph_action (isMutatingAction · = false) rfl _ _ _ (still tracked) _ known _ listed
  have kept : result.world.installed = run.world.installed ∧ result.world.calls = run.world.calls ∧
      (config.useTransactionDb = false → result.world.journal = run.world.journal) := by
    rw [left]
    split
    · rename_i on
      rw [finishTransactions_calls]
      exact ⟨idle.installed, idle.calls, fun off => by simp [on] at off⟩
    · exact ⟨idle.installed, idle.calls, fun _ => idle.journal⟩
  exact ⟨kept.1.trans (same.installed.trans (installed.trans planned.installed)),
    kept.2.1.trans (same.calls.trans (calls.trans planned.calls)),
    fun off => (kept.2.2 off).trans (same.journal.trans ((journal off).trans planned.journal))⟩

end Calls

section Examples

/-- A dry run with nothing to track. -/
def untrackedDryRun : ExecutionConfig := { dryRun := true, trackInstalled := false }

/-- The journal of a run of one package that was interrupted while it was running. -/
def runningPython : Journal where
  activeRun := some "t-1"
  runs := Function.update (fun _ => none) "t-1" (some { state := .opened })
  items := Function.update (fun _ => []) "t-1"
    [{ sequence := 0, package := { action := .install, system := "apt", name := "python" },
       status := .running }]

def interruptedInstall : World Unit where
  plugins := ()
  journal := runningPython

def pythonInstalled : World Unit where
  plugins := ()
  installed := [{ name := "python", version := "3", system := "apt" }]

def removePython : Graph where
  packages := [{ action := .remove, system := "apt", name := "python" }]
  edges := []
  bounded := by simp

end Examples

end ReqPack.Executor
