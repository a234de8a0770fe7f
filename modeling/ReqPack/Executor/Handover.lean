import ReqPack.Executor.ExecuteCases

/-! # No success without a call

A group with a local target is installed by one `installLocal` call, with the path
of the last local target put into it.  Every package of the group gets a record,
so the records are true of all of them only if they all are that one file.
-/

namespace ReqPack.Executor

open ReqPack.Data ReqPack.Core ReqPack.Scheduler

/-- The call gives the package to the plugin of the system. -/
def PluginCall.hands (system : String) (package : Package) : PluginCall → Bool
  | .install plugin _ packages => plugin == system && decide (package ∈ packages)
  | .installLocal plugin _ path =>
      plugin == system && package.localTarget && path == package.sourcePath
  | _ => false

/-- One of the calls gave the package to the plugin of the system. -/
def HandedOver (system : String) (package : Package) (calls : List (PluginCall × Bool)) : Prop :=
  ∃ entry ∈ calls, entry.1.hands system package = true

instance (system : String) (package : Package) (calls : List (PluginCall × Bool)) :
    Decidable (HandedOver system package calls) :=
  inferInstanceAs (Decidable (∃ entry ∈ calls, entry.1.hands system package = true))

/-- The records report a success for the package. -/
def ReportsSuccess (records : List TransactionRecord) (package : Package) : Prop :=
  ∃ record ∈ records, record.status = .success ∧ record.packageName = package.name ∧
    record.packageVersion = package.version

/-- Local targets do not share a group with anything but themselves. -/
def OneLocalSource (group : TaskGroup) : Prop :=
  ∀ first ∈ group.packages, first.localTarget = true →
    ∀ second ∈ group.packages, second.localTarget = true ∧ second.sourcePath = first.sourcePath

section Groups

variable {σ : Type} {host : Host σ} {config : ExecutionConfig} {runId : String} {group : TaskGroup}

/-- Executing the group, a package it reports as done was given to the plugin. -/
def HandsOver (host : Host σ) (config : ExecutionConfig) (runId : String) (group : TaskGroup) : Prop :=
  ∀ world : World σ, ∀ package ∈ group.packages,
    ReportsSuccess (executeTaskGroup host config runId group world).1 package →
    HandedOver group.system package
      ((executeTaskGroup host config runId group world).2.calls.drop world.calls.length)

theorem exists_localTarget (coherent : group.Coherent) (targeted : group.usesLocalTarget = true) :
    ∃ package ∈ group.packages, package.localTarget = true ∧ package.sourcePath = group.localPath := by
  rw [coherent.usesLocalTarget, List.any_eq_true] at targeted
  obtain ⟨package, member, target⟩ := targeted
  have some : group.packages.filter (·.localTarget) ≠ [] :=
    List.ne_nil_of_mem (List.mem_filter.mpr ⟨member, target⟩)
  have last := List.mem_filter.mp (List.getLast_mem some)
  refine ⟨_, last.1, last.2, ?_⟩
  rw [coherent.localPath, lastLocalPath, List.getLast?_eq_some_getLast some]
  rfl

theorem oneLocalSource_iff (coherent : group.Coherent) :
    OneLocalSource group ↔ (group.usesLocalTarget = true → ∀ package ∈ group.packages,
      package.localTarget = true ∧ package.sourcePath = group.localPath) := by
  constructor
  · intro alone targeted package member
    obtain ⟨first, listed, target, path⟩ := exists_localTarget coherent targeted
    have same := alone first listed target package member
    exact ⟨same.1, same.2.trans path⟩
  · intro targets first listed target second member
    have targeted : group.usesLocalTarget = true := by
      rw [coherent.usesLocalTarget, List.any_eq_true]
      exact ⟨first, listed, target⟩
    have same := targets targeted second member
    exact ⟨same.1, same.2.trans (targets targeted first listed).2.symm⟩

/-- The call of an install group gives every package of the group to the plugin. -/
theorem CallFor.hands {call : PluginCall} (called : CallFor group call)
    (action : isPlanInstallLike group.action = true)
    (plugin : ∀ name, group.plugin = some name → name = group.system)
    (targets : group.usesLocalTarget = true → ∀ package ∈ group.packages,
      package.localTarget = true ∧ package.sourcePath = group.localPath)
    {package : Package} (member : package ∈ group.packages) :
    call.hands group.system package = true := by
  obtain ⟨name, supportsPack, named, made⟩ := called
  have same : name = group.system := by
    rcases named with preloaded | direct
    · exact plugin name preloaded
    · exact direct
  subst name
  have installs : pluginCallFor group group.system supportsPack =
      if group.usesLocalTarget then
        some (.installLocal group.system (buildPluginContext group) group.localPath)
      else some (.install group.system (buildPluginContext group) group.packages) := by
    cases kind : group.action <;> simp [isPlanInstallLike, kind] at action
    all_goals simp [pluginCallFor, kind]
  rw [installs] at made
  cases targeted : group.usesLocalTarget with
  | true =>
      simp only [targeted, if_true, Option.some.injEq] at made
      obtain ⟨target, path⟩ := targets targeted package member
      simp [← made, PluginCall.hands, target, path]
  | false =>
      simp only [targeted, Bool.false_eq_true, if_false, Option.some.injEq] at made
      simp [← made, PluginCall.hands, member]

/-- One execution: what it reports as done it gave away. -/
theorem GroupExecution.handedOver {before after : World σ} {records : List TransactionRecord}
    (execution : GroupExecution host config runId group before records after)
    (wet : config.dryRun = false) (system : host.isGatewaySystem group.system = false)
    (action : isPlanInstallLike group.action = true)
    (plugin : ∀ name, group.plugin = some name → name = group.system)
    (targets : group.usesLocalTarget = true → ∀ package ∈ group.packages,
      package.localTarget = true ∧ package.sourcePath = group.localPath)
    {package : Package} (member : package ∈ group.packages) (reported : ReportsSuccess records package) :
    ∃ made, after.calls = before.calls ++ made ∧ HandedOver group.system package made := by
  obtain ⟨record, listed, success, _⟩ := reported
  obtain ⟨call, ok, called, grown, _⟩ := execution.success_called wet system listed success
  exact ⟨[(call, ok)], grown, (call, ok), List.mem_singleton_self _,
    called.hands action plugin targets member⟩

end Groups

/-- Every package that a call reports as installed was given to its plugin in that call. -/
def SuccessesHandedOver {σ : Type} (host : Host σ) (world : World σ) (result : ExecuteResult σ) : Prop :=
  ∀ index group, result.taskGroups[index]? = some group → isPlanInstallLike group.action = true →
    host.isGatewaySystem group.system = false → ∀ package ∈ group.packages,
      ReportsSuccess (recordsIn result.log index) package →
      HandedOver group.system package (result.world.calls.drop world.calls.length)

section Runs

variable {σ : Type} {host : Host σ} {config : ExecutionConfig}

theorem executeGraph_handedOver (wet : config.dryRun = false) {inputAlreadyFiltered : Bool}
    {graph : Graph} {script : ExecuteScript} {world : World σ} {result : ExecuteResult σ}
    (alone : ∀ group ∈ createFromGraph config.platform graph script.sorted,
      isPlanInstallLike group.action = true → host.isGatewaySystem group.system = false →
      OneLocalSource group)
    (done : executeGraph host config inputAlreadyFiltered graph script world = some result) :
    SuccessesHandedOver host world result := by
  intro index group found action system package member reported
  rcases executeGraph_mainPass done with ⟨nothing, _⟩ | ⟨opened, run, main⟩
  · simp [nothing, recordsIn, ReportsSuccess] at reported
  obtain ⟨original, known, origin⟩ : ∃ original ∈ createFromGraph config.platform graph script.sorted,
      PlannedFrom original group := by
    rw [(executeGraph_cases done).2.1] at found
    exact plannedGroups_from (List.mem_of_getElem? found)
  have coherent := createFromGraph_coherent _ _ _ original known
  have single := alone original known (origin.action ▸ action) (origin.system ▸ system)
  have targets : group.usesLocalTarget = true → ∀ package ∈ group.packages,
      package.localTarget = true ∧ package.sourcePath = group.localPath := by
    intro targeted
    rw [origin.usesLocalTarget] at targeted
    rw [origin.packages targeted, origin.localPath]
    exact (oneLocalSource_iff coherent).mp single targeted
  -- The record stands in the completed entry of the group, so the group was executed.
  obtain ⟨record, listed, success⟩ := reported
  obtain ⟨records, completed, present⟩ := mem_recordsIn.1 listed
  obtain ⟨before, after, earlier, execution, later⟩ := main.execution found completed
  obtain ⟨made, grown, entry, called, hands⟩ := execution.handedOver wet system action origin.plugin
    targets member ⟨record, present, success⟩
  exact ⟨entry, earlier.mem_new_calls grown later called, hands⟩

theorem handsOver_of_oneLocalSource (wet : config.dryRun = false) {runId : String} {group : TaskGroup}
    (coherent : group.Coherent) (action : isPlanInstallLike group.action = true)
    (system : host.isGatewaySystem group.system = false) (alone : OneLocalSource group) :
    HandsOver host config runId group := by
  intro world package member reported
  have execution := executeTaskGroup_execution host config runId group world
  obtain ⟨made, grown, handed⟩ := execution.handedOver wet system action
    (by simp [coherent.plugin]) ((oneLocalSource_iff coherent).mp alone) member reported
  rw [grown, List.drop_left]
  exact handed

end Runs

theorem oneLocalSource_of_handsOver {gateway : String → Bool} {group : TaskGroup}
    (coherent : group.Coherent) (action : isPlanInstallLike group.action = true)
    (system : gateway group.system = false)
    (handsOver : HandsOver (obligingHost gateway) {} "" group) : OneLocalSource group := by
  rw [oneLocalSource_iff coherent]
  intro targeted package member
  have made : pluginCallFor group group.system true =
      some (.installLocal group.system (buildPluginContext group) group.localPath) := by
    cases kind : group.action <;> simp [isPlanInstallLike, kind] at action
    all_goals simp [pluginCallFor, kind, targeted]
  have executed : executeTaskGroup (obligingHost gateway) {} "" group { plugins := () } =
      (buildSuccessRecords group "",
        { plugins := ()
          calls := [(.installLocal group.system (buildPluginContext group) group.localPath, true)] }) := by
    simp [executeTaskGroup, softSkipsNix, Platform.softSkipNixInstalls, obligingHost, system,
      coherent.nonempty, coherent.plugin, coherent.pluginLoadFailed, dispatchTaskGroupToPlugin,
      pluginOf, made, performCall]
  obtain ⟨entry, called, hands⟩ := handsOver { plugins := () } package member
    (by rw [executed]; exact ⟨_, mem_buildSuccessRecords.2 ⟨package, member, rfl⟩, rfl, rfl, rfl⟩)
  rw [executed] at called
  simp only [List.length_nil, List.drop_zero, List.mem_singleton] at called
  subst entry
  simp only [PluginCall.hands, beq_self_eq_true, Bool.true_and, Bool.and_eq_true, beq_iff_eq] at hands
  exact ⟨hands.1, hands.2.symm⟩

/-- Successes are handed over, by every group and in every call, exactly if no
install group mixes a local target with anything else. -/
theorem installs_handed_over_iff (platform : Platform) (graph : Graph) (sorted : List Nat)
    (gateway : String → Bool) :
    ((∀ group ∈ createFromGraph platform graph sorted, isPlanInstallLike group.action = true →
        gateway group.system = false →
        ∀ (σ : Type) (host : Host σ) (config : ExecutionConfig) (runId : String),
          host.isGatewaySystem = gateway → config.dryRun = false → HandsOver host config runId group) ∧
      ∀ (σ : Type) (host : Host σ) (config : ExecutionConfig) (inputAlreadyFiltered : Bool)
        (script : ExecuteScript) (world : World σ) (result : ExecuteResult σ),
        host.isGatewaySystem = gateway → config.platform = platform → config.dryRun = false →
        script.sorted = sorted →
        executeGraph host config inputAlreadyFiltered graph script world = some result →
        SuccessesHandedOver host world result) ↔
      ∀ group ∈ createFromGraph platform graph sorted, isPlanInstallLike group.action = true →
        gateway group.system = false → OneLocalSource group := by
  constructor
  · intro holds group member action system
    exact oneLocalSource_of_handsOver (createFromGraph_coherent _ _ _ group member) action system
      (holds.1 group member action system Unit (obligingHost gateway) {} "" rfl rfl)
  · intro alone
    constructor
    · intro group member action system σ host config runId same wet
      exact handsOver_of_oneLocalSource wet (createFromGraph_coherent _ _ _ group member) action
        (same ▸ system) (alone group member action system)
    · intro σ host config inputAlreadyFiltered script world result same samePlatform wet order done
      refine executeGraph_handedOver wet (fun group member action system => ?_) done
      rw [samePlatform, order] at member
      exact alone group member action (same ▸ system)

/-- Two files of one system that are installed in one go. -/
def twoWheels : Graph where
  packages :=
    [{ action := .install, system := "pip", name := "a", sourcePath := "/tmp/a.whl", localTarget := true },
      { action := .install, system := "pip", name := "b", sourcePath := "/tmp/b.whl", localTarget := true }]
  edges := []
  bounded := by simp

/-- Both wheels are reported as installed, and only the second one was. -/
theorem first_wheel_not_handed_over :
    SortedBy twoWheels [1, 0] ∧ ∃ result,
      executeGraph (obligingHost fun _ => false) {} true twoWheels { sorted := [1, 0], orphanRounds := 1 }
        { plugins := () } = some result ∧
      (∃ record ∈ result.records, record.status = .success ∧ record.action = .install ∧
        record.system = "pip" ∧ record.packageName = "a" ∧ record.packageVersion = "") ∧
      ¬ HandedOver "pip" (twoWheels.package 0) result.world.calls := by
  refine ⟨⟨by decide, by decide⟩, ?_⟩
  have evaluated : ((executeGraph (obligingHost fun _ => false) {} true twoWheels
      { sorted := [1, 0], orphanRounds := 1 } { plugins := () }).any fun result =>
        decide (∃ record ∈ result.records, record.status = .success ∧ record.action = .install ∧
          record.system = "pip" ∧ record.packageName = "a" ∧ record.packageVersion = "") &&
        decide (¬ HandedOver "pip" (twoWheels.package 0) result.world.calls)) = true := by
    decide
  obtain ⟨result, done, holds⟩ := (Option.any_eq_true _ _).mp evaluated
  simp only [Bool.and_eq_true, decide_eq_true_eq] at holds
  exact ⟨result, done, holds.1, holds.2⟩

end ReqPack.Executor
