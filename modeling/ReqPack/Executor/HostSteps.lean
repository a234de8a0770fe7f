import ReqPack.Executor.Stages

/-! # What a call does to the plugins

Whatever stage it is in, the executor changes the state of the plugins in five ways
only: by a plugin call, which is written down, by a request to the gateway, and by
asking what is missing, what happened and what is installed.
-/

namespace ReqPack.Executor

open ReqPack.Data ReqPack.Core ReqPack.Scheduler

variable {σ : Type}

/-- The plugins, and the calls they have got. -/
def World.trace (world : World σ) : σ × List (PluginCall × Bool) := (world.plugins, world.calls)

inductive HostStep (host : Host σ) :
    σ × List (PluginCall × Bool) → σ × List (PluginCall × Bool) → Prop where
  | performed (call : PluginCall) (plugins : σ) (calls : List (PluginCall × Bool)) :
      HostStep host (plugins, calls)
        ((host.perform call plugins).2, calls ++ [(call, (host.perform call plugins).1)])
  | gateway (action : ActionType) (system : String) (packages : List Package) (plugins : σ)
      (calls : List (PluginCall × Bool)) :
      HostStep host (plugins, calls) ((host.executeGatewayRequest action system packages plugins).2, calls)
  | missing (system : String) (packages : List Package) (plugins : σ) (calls : List (PluginCall × Bool)) :
      HostStep host (plugins, calls) ((host.getMissingPackages system packages plugins).2, calls)
  | events (system : String) (plugins : σ) (calls : List (PluginCall × Bool)) :
      HostStep host (plugins, calls) ((host.takeRecentEvents system plugins).2, calls)
  | listed (system : String) (plugins : σ) (calls : List (PluginCall × Bool)) :
      HostStep host (plugins, calls) ((host.listPackages system plugins).2, calls)

/-- One world comes from another by steps of the host. -/
def HostRun (host : Host σ) (before after : World σ) : Prop :=
  Relation.ReflTransGen (HostStep host) before.trace after.trace

variable {host : Host σ} {config : ExecutionConfig}

namespace HostRun

theorem refl (world : World σ) : HostRun host world world := Relation.ReflTransGen.refl

theorem trans {first second third : World σ} (earlier : HostRun host first second)
    (later : HostRun host second third) : HostRun host first third :=
  Relation.ReflTransGen.trans earlier later

theorem of_trace {before after : World σ} (plugins : after.plugins = before.plugins)
    (calls : after.calls = before.calls) : HostRun host before after := by
  unfold HostRun World.trace
  rw [plugins, calls]

theorem foldl {α β : Type} {step : β × World σ → α → β × World σ}
    (stepwise : ∀ state entry, HostRun host state.2 (step state entry).2) (entries : List α)
    (state : β × World σ) : HostRun host state.2 (entries.foldl step state).2 :=
  foldl_respects (fun before after : β × World σ => HostRun host before.2 after.2)
    (fun state => .refl state.2) (fun _ _ _ => .trans) stepwise entries state

end HostRun

section Groups

theorem dispatchTaskGroupToSecurityGateway_hostRun (group : TaskGroup) (world : World σ) :
    HostRun host world (dispatchTaskGroupToSecurityGateway host group world).2 :=
  .single (.gateway group.action group.system group.packages world.plugins world.calls)

theorem dispatchTaskGroupToPlugin_hostRun (group : TaskGroup) (world : World σ) :
    HostRun host world (dispatchTaskGroupToPlugin host group world).2 := by
  unfold dispatchTaskGroupToPlugin
  split
  · exact dispatchTaskGroupToSecurityGateway_hostRun group world
  split
  · exact .refl world
  split
  · exact .refl world
  · rename_i call _
    exact .single (.performed call world.plugins world.calls)

theorem settleFailedCall_hostRun (group : TaskGroup) (runId : String) (world : World σ) :
    HostRun host world (settleFailedCall host group runId world).2 := by
  have events : HostRun host world (takeUnavailable host group world).2 := by
    unfold takeUnavailable
    split
    · exact .single (.events group.system world.plugins world.calls)
    · exact .refl world
  have asked : ∀ middle : World σ, HostRun host middle (splitByMissing host group middle).2 := by
    intro middle
    unfold splitByMissing
    split
    · exact .single (.missing group.system group.packages middle.plugins middle.calls)
    · exact .refl middle
  exact events.trans (asked _)

theorem runTaskGroup_hostRun (group : TaskGroup) (runId : String) (world : World σ) :
    HostRun host world (runTaskGroup host group runId world).2 := by
  unfold runTaskGroup
  split
  · exact dispatchTaskGroupToPlugin_hostRun group world
  split
  · exact .refl world
  · rename_i journal _
    have written : HostRun host world { world with journal := journal } := .of_trace rfl rfl
    have dispatched := written.trans (dispatchTaskGroupToPlugin_hostRun group { world with journal := journal })
    dsimp only
    split
    · exact dispatched
    · exact dispatched.trans (settleFailedCall_hostRun group runId _)

theorem executeTaskGroup_hostRun (runId : String) (group : TaskGroup) (world : World σ) :
    HostRun host world (executeTaskGroup host config runId group world).2 := by
  unfold executeTaskGroup
  split
  · exact .refl world
  split
  · exact .refl world
  split
  · exact dispatchTaskGroupToSecurityGateway_hostRun group world
  split
  · exact .refl world
  split
  · exact .refl world
  split
  · exact runTaskGroup_hostRun group runId world
  · exact dispatchTaskGroupToPlugin_hostRun group world

end Groups

section Stages

theorem syncInstalledStateForSystem_hostRun (system : String) (allowEmpty : Bool) (world : World σ) :
    HostRun host world (syncInstalledStateForSystem host config system allowEmpty world).2 := by
  unfold syncInstalledStateForSystem
  split
  · exact .refl world
  split
  · exact .refl world
  · have listed : HostRun host world { world with plugins := (host.listPackages system world.plugins).2 } :=
      .single (.listed system world.plugins world.calls)
    dsimp only
    split
    · exact listed
    · exact listed

theorem recordHistory_hostRun (records : List TransactionRecord) (world : World σ) :
    HostRun host world (recordHistory host config records world) := by
  unfold recordHistory
  split
  · have appended : HostRun host world (appendEvents config records world) := by
      unfold appendEvents
      split
      · exact .of_trace rfl rfl
      · exact .refl world
    have refreshed : HostRun host (appendEvents config records world)
        (refreshInstalledState host config records (appendEvents config records world)).2 := by
      unfold refreshInstalledState
      split
      · refine HostRun.foldl (fun state system => ?_) _ (([] : List String), _)
        exact syncInstalledStateForSystem_hostRun system _ state.2
      · exact .refl _
    refine (appended.trans refreshed).trans ?_
    refine foldl_respects (HostRun host) .refl (fun _ _ _ => .trans) (fun state record => ?_) _ _
    unfold updateInstalledRecord
    split
    · exact .of_trace rfl rfl
    · exact .refl state
  · exact .refl world

theorem reconcileInstalledOwnership_hostRun (allTaskGroups taskGroups : List TaskGroup)
    (records : List TransactionRecord) (world : World σ) :
    HostRun host world (reconcileInstalledOwnership host config allTaskGroups taskGroups records world) := by
  unfold reconcileInstalledOwnership
  split
  · refine foldl_respects (HostRun host) .refl (fun _ _ _ => .trans) (fun state package => ?_) _ _
    unfold mergeOwnershipForPackage
    have merged : ∀ (dependencies : List Package) (state : World σ), HostRun host state (dependencies.foldl
        (fun world dependency => setInstalled (world.installed.mergeInstalledOwnership dependency
          [installedPackageOwnerId package] false) world) state) :=
      foldl_respects (HostRun host) .refl (fun _ _ _ => .trans) fun state dependency => .of_trace rfl rfl
    refine HostRun.trans ?_ (merged _ _)
    split
    · exact .refl state
    · exact .of_trace rfl rfl
  · exact .refl world

theorem subtractDependencyOwnership_hostRun (records : List TransactionRecord) (world : World σ) :
    HostRun host world (subtractDependencyOwnership host config records world) := by
  unfold subtractDependencyOwnership
  split
  · refine foldl_respects (HostRun host) .refl (fun _ _ _ => .trans) (fun state record => ?_) _ _
    refine foldl_respects (HostRun host) .refl (fun _ _ _ => .trans) (fun state dependency => ?_) _ state
    exact .of_trace rfl rfl
  · exact .refl world

theorem orphanRound_hostRun (records : List TransactionRecord) (world : World σ) :
    HostRun host world (orphanRound host config records world).2 := by
  have removed : ∀ groups (world : World σ),
      HostRun host world (removeOrphanGroups host config groups world).2 := by
    intro groups world
    refine HostRun.foldl (fun state group => ?_) groups (([] : List TransactionRecord), world)
    exact executeTaskGroup_hostRun "" group state.2
  unfold orphanRound
  dsimp only
  split
  · exact removed _ world
  · exact ((removed _ world).trans (recordHistory_hostRun _ _)).trans (subtractDependencyOwnership_hostRun _ _)

theorem removeOrphanedDependencies_hostRun {fuel : Nat} {records removed : List TransactionRecord}
    {world after : World σ}
    (cleaned : removeOrphanedDependencies host config fuel records world = some (removed, after)) :
    HostRun host world after := by
  induction fuel generalizing records removed world after with
  | zero => simp [removeOrphanedDependencies] at cleaned
  | succ fuel ih =>
      have first := @orphanRound_hostRun σ host config records world
      simp only [removeOrphanedDependencies] at cleaned
      split at cleaned
      · split at cleaned
        · simp only [Option.some.injEq] at cleaned
          rw [cleaned] at first
          exact first
        · simp only [Option.map_eq_some_iff] at cleaned
          obtain ⟨⟨nested, final⟩, deeper, same⟩ := cleaned
          cases same
          exact first.trans (ih deeper)
      · cases cleaned
        exact .refl world

theorem plannedGroups_hostRun (inputAlreadyFiltered : Bool) (graph : Graph) (sorted : List Nat)
    (world : World σ) :
    HostRun host world (plannedGroups host config inputAlreadyFiltered graph sorted world).2 := by
  cases inputAlreadyFiltered with
  | true => exact .refl world
  | false =>
      refine HostRun.foldl (fun state group => ?_) _ (([] : List TaskGroup), world)
      dsimp only [filterGroup]
      repeat' split
      all_goals first
        | exact .refl _
        | exact .single (.missing _ _ _ _)

theorem finishTransactions_hostRun (records : List TransactionRecord) (world : World σ) :
    HostRun host world (finishTransactions host config records world) := by
  rw [finishTransactions_calls]
  exact .of_trace rfl rfl

theorem reconcileRecoveredItems_hostRun (runId : String) (items : List JournalItem) (world : World σ) :
    HostRun host world (reconcileRecoveredItems host runId items world).2 := by
  unfold reconcileRecoveredItems
  refine HostRun.foldl (fun state system => ?_) _ (_, world)
  unfold reconcileSystem
  dsimp only
  split
  · have settled : ∀ missing (items : List JournalItem) (state : List JournalItem × World σ),
        HostRun host state.2 (items.foldl (reconcileItem host runId missing) state).2 := by
      intro missing items
      refine HostRun.foldl (fun state item => ?_) items
      unfold reconcileItem
      repeat' split
      all_goals exact .of_trace rfl rfl
    refine HostRun.trans ?_ (settled _ _ _)
    exact .single (.missing system _ state.2.plugins state.2.calls)
  · exact .refl _

theorem recoverInterruptedRun_hostRun (world : World σ) :
    HostRun host world (recoverInterruptedRun host config world) := by
  have pending : HostRun host world (recoverPendingTaskGroups host config world).2 := by
    unfold recoverPendingTaskGroups
    split
    · exact .refl world
    split
    · exact .refl world
    · rename_i runId run _ _
      have reconciled := @reconcileRecoveredItems_hostRun σ host runId
        ((world.journal.getRunItems runId).filter fun item => !item.status.settled)
        { world with activeRunId := runId }
      have entered : HostRun host world { world with activeRunId := runId } := .of_trace rfl rfl
      dsimp only
      split
      · exact (entered.trans reconciled).trans (.of_trace rfl rfl)
      · exact (entered.trans reconciled).trans (.of_trace rfl rfl)
  unfold recoverInterruptedRun
  dsimp only
  split
  · rw [executeRecoveredGroups_eq]
    refine (pending.trans ?_).trans (finishTransactions_hostRun _ _)
    exact runInOrder_respects (HostRun host) .refl (fun _ _ _ => .trans)
      (fun group before => executeTaskGroup_hostRun _ group before) _ _ _
  · exact pending

/-- Everything a call does to the plugins it does in steps of the host. -/
theorem execute_hostRun {inputAlreadyFiltered : Bool} {graph : Graph} {script : ExecuteScript}
    {world : World σ} {result : ExecuteResult σ}
    (done : execute host config inputAlreadyFiltered graph script world = some result) :
    HostRun host world result.world := by
  rcases execute_cases done with ⟨_, _, left⟩ | ⟨recovered, entered, rest⟩
  · rw [left]
    exact recoverInterruptedRun_hostRun world
  have recovers : HostRun host world recovered := by
    unfold recoveredWorld at entered
    split at entered
    · dsimp only at entered
      split at entered
      · simp at entered
      · cases entered
        exact (recoverInterruptedRun_hostRun world).trans (.of_trace rfl rfl)
    · cases entered
      exact .refl world
  refine recovers.trans ?_
  obtain ⟨_, _, ⟨_, _, _, left, _⟩ | ⟨opened, run, created, ran, concluded⟩⟩ := executeGraph_cases rest
  · rw [left]
    exact plannedGroups_hostRun _ _ _ _
  have opens : HostRun host
      (plannedGroups host config inputAlreadyFiltered graph script.sorted recovered).2 opened := by
    rw [openRun_world created]
    exact .of_trace rfl rfl
  obtain ⟨executed, _⟩ := runPlans_worlds HostRun.refl (fun _ _ _ => HostRun.trans)
    (executeTaskGroup_hostRun opened.activeRunId) ran
  obtain ⟨cleaned, removed, _, _, _, _, left⟩ := concludeRun_cases concluded
  have concludes : HostRun host run.world cleaned :=
    ((recordHistory_hostRun _ _).trans (reconcileInstalledOwnership_hostRun _ _ _ _)).trans
      ((subtractDependencyOwnership_hostRun _ _).trans (removeOrphanedDependencies_hostRun removed))
  have finishes : HostRun host cleaned result.world := by
    rw [left]
    split
    · exact finishTransactions_hostRun _ _
    · exact .refl cleaned
  exact (((plannedGroups_hostRun _ _ _ _).trans opens).trans executed).trans (concludes.trans finishes)

end Stages

end ReqPack.Executor
