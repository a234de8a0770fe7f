import ReqPack.Scheduler.Worlds
import ReqPack.Executor.DispatchCases
import ReqPack.Executor.Execute

/-! # What the stages of the executor leave alone

Filtering only asks plugins, the history stages only write the installed state,
and the logs of calls only ever grow.
-/

namespace ReqPack.Executor

open ReqPack.Data ReqPack.Core ReqPack.Scheduler

variable {σ : Type} (host : Host σ) (config : ExecutionConfig)

/-- Nothing but the plugins changed. -/
def TouchesPlugins (before after : World σ) : Prop := after = { before with plugins := after.plugins }

/-- Nothing but the plugins, the installed state and the history log changed. -/
def TouchesHistory (before after : World σ) : Prop :=
  after = { before with
    plugins := after.plugins
    installed := after.installed
    ownedOnce := after.ownedOnce
    history := after.history }

/-- The logs of plugin calls and gateway calls only got longer. -/
structure Extends (before after : World σ) : Prop where
  calls : before.calls <+: after.calls
  gatewayCalls : before.gatewayCalls <+: after.gatewayCalls

namespace Extends

theorem refl (world : World σ) : Extends world world := ⟨List.prefix_refl _, List.prefix_refl _⟩

theorem trans {first second third : World σ} (earlier : Extends first second)
    (later : Extends second third) : Extends first third :=
  ⟨earlier.calls.trans later.calls, earlier.gatewayCalls.trans later.gatewayCalls⟩

/-- What was added between two worlds was added in every run that spans them. -/
theorem mem_new_calls {first before after last : World σ} (earlier : Extends first before)
    {made : List (PluginCall × Bool)} (grown : after.calls = before.calls ++ made)
    (later : Extends after last) {entry : PluginCall × Bool} (member : entry ∈ made) :
    entry ∈ last.calls.drop first.calls.length := by
  obtain ⟨front, split⟩ := earlier.calls
  obtain ⟨rest, split'⟩ := later.calls
  rw [← split', grown, ← split]
  simp [member]

theorem mem_new_gatewayCalls {first before after last : World σ} (earlier : Extends first before)
    {sent : List ((ActionType × String × List Package) × Bool)}
    (grown : after.gatewayCalls = before.gatewayCalls ++ sent) (later : Extends after last)
    {entry : (ActionType × String × List Package) × Bool} (member : entry ∈ sent) :
    entry ∈ last.gatewayCalls.drop first.gatewayCalls.length := by
  obtain ⟨front, split⟩ := earlier.gatewayCalls
  obtain ⟨rest, split'⟩ := later.gatewayCalls
  rw [← split', grown, ← split]
  simp [member]

end Extends

theorem TouchesPlugins.refl (world : World σ) : TouchesPlugins world world := rfl

theorem TouchesPlugins.trans {first second third : World σ} (earlier : TouchesPlugins first second)
    (later : TouchesPlugins second third) : TouchesPlugins first third := by
  unfold TouchesPlugins at *
  rw [later, earlier]

theorem TouchesHistory.refl (world : World σ) : TouchesHistory world world := rfl

theorem TouchesHistory.trans {first second third : World σ} (earlier : TouchesHistory first second)
    (later : TouchesHistory second third) : TouchesHistory first third := by
  unfold TouchesHistory at *
  rw [later, earlier]

/-- A loop of stages that only touch the history only touches the history. -/
theorem TouchesHistory.foldl {α : Type} {step : World σ → α → World σ}
    (stepwise : ∀ world entry, TouchesHistory world (step world entry)) (entries : List α)
    (world : World σ) : TouchesHistory world (entries.foldl step world) :=
  foldl_respects TouchesHistory .refl (fun _ _ _ => .trans) stepwise entries world

theorem TouchesPlugins.history {before after : World σ} (touches : TouchesPlugins before after) :
    TouchesHistory before after := by
  unfold TouchesPlugins at touches
  unfold TouchesHistory
  rw [touches]

theorem TouchesHistory.extends {before after : World σ} (touches : TouchesHistory before after) :
    Extends before after := by
  unfold TouchesHistory at touches
  rw [touches]
  exact ⟨List.prefix_refl _, List.prefix_refl _⟩

section History

theorem setInstalled_touches (store : InstalledStore) (world : World σ) :
    TouchesHistory world (setInstalled store world) := rfl

theorem syncInstalledStateForSystem_touches (system : String) (allowEmpty : Bool) (world : World σ) :
    TouchesHistory world (syncInstalledStateForSystem host config system allowEmpty world).2 := by
  simp only [syncInstalledStateForSystem]
  split
  · rfl
  split
  · rfl
  split
  · rfl
  · rfl

theorem refreshInstalledState_touches (records : List TransactionRecord) (world : World σ) :
    TouchesHistory world (refreshInstalledState host config records world).2 := by
  unfold refreshInstalledState
  split
  · refine foldl_respects (fun before after => TouchesHistory before.2 after.2)
      (fun state => .refl state.2) (fun _ _ _ => .trans) (fun state system => ?_) _
      (([] : List String), world)
    exact syncInstalledStateForSystem_touches host config system _ state.2
  · rfl

theorem updateInstalledRecord_touches (record : TransactionRecord) (world : World σ) :
    TouchesHistory world (updateInstalledRecord config record world) := by
  unfold updateInstalledRecord
  split <;> rfl

theorem appendEvents_touches (records : List TransactionRecord) (world : World σ) :
    TouchesHistory world (appendEvents config records world) := by
  unfold appendEvents
  split <;> rfl

theorem recordHistory_touches (records : List TransactionRecord) (world : World σ) :
    TouchesHistory world (recordHistory host config records world) := by
  simp only [recordHistory]
  split
  · have appended := appendEvents_touches config records world
    refine (appended.trans (refreshInstalledState_touches host config records _)).trans ?_
    exact .foldl (fun state record => updateInstalledRecord_touches config record state) _ _
  · rfl

theorem mergeOwnershipForPackage_touches (allPackages : List Package) (package : Package)
    (world : World σ) :
    TouchesHistory world (mergeOwnershipForPackage host allPackages package world) := by
  simp only [mergeOwnershipForPackage]
  refine TouchesHistory.trans ?_ (.foldl (fun state dependency => setInstalled_touches _ state) _ _)
  split <;> rfl

theorem reconcileInstalledOwnership_touches (allTaskGroups plannedTaskGroups : List TaskGroup)
    (records : List TransactionRecord) (world : World σ) :
    TouchesHistory world
      (reconcileInstalledOwnership host config allTaskGroups plannedTaskGroups records world) := by
  simp only [reconcileInstalledOwnership]
  split
  · exact .foldl (fun state package => mergeOwnershipForPackage_touches host _ package state) _ _
  · rfl

theorem subtractDependencyOwnership_touches (records : List TransactionRecord) (world : World σ) :
    TouchesHistory world (subtractDependencyOwnership host config records world) := by
  simp only [subtractDependencyOwnership]
  split
  · refine .foldl (fun state record => ?_) _ _
    exact .foldl (fun state dependency => setInstalled_touches _ state) _ _
  · rfl

theorem syncInstalledStateForSystem_history (system : String) (allowEmpty : Bool) (world : World σ)
    (history : List HistoryEvent) :
    syncInstalledStateForSystem host config system allowEmpty { world with history := history } =
      ((syncInstalledStateForSystem host config system allowEmpty world).1,
        { (syncInstalledStateForSystem host config system allowEmpty world).2 with history := history }) := by
  simp only [syncInstalledStateForSystem]
  split
  · rfl
  split
  · rfl
  split
  · rfl
  · rfl

/-- The log of events plays no part in the refresh. -/
theorem refreshInstalledState_history (records : List TransactionRecord) (world : World σ)
    (history : List HistoryEvent) :
    refreshInstalledState host config records { world with history := history } =
      ((refreshInstalledState host config records world).1,
        { (refreshInstalledState host config records world).2 with history := history }) := by
  simp only [refreshInstalledState]
  split
  · induction refreshTargets records using List.reverseRecOn with
    | nil => rfl
    | append_singleton systems system ih =>
        rw [List.foldl_concat, List.foldl_concat, ih]
        simp only [syncInstalledStateForSystem_history]
  · rfl

theorem refreshInstalledState_appendEvents (records : List TransactionRecord) (world : World σ) :
    (refreshInstalledState host config records (appendEvents config records world)).1 =
        (refreshInstalledState host config records world).1 ∧
      (refreshInstalledState host config records (appendEvents config records world)).2.installed =
        (refreshInstalledState host config records world).2.installed := by
  unfold appendEvents
  split
  · rw [refreshInstalledState_history]
    exact ⟨rfl, rfl⟩
  · exact ⟨rfl, rfl⟩

variable {host config}

theorem subtractDependencyOwnership_idle {records : List TransactionRecord} {world : World σ}
    (idle : tracksInstalled config = true → records.filter isSuccessfulRemoval = []) :
    subtractDependencyOwnership host config records world = world := by
  cases tracked : tracksInstalled config with
  | false => simp [subtractDependencyOwnership, tracked]
  | true => simp [subtractDependencyOwnership, tracked, idle tracked]

/-- Where nothing was removed there is nothing to clean up. -/
theorem removeOrphanedDependencies_idle {records : List TransactionRecord} {world : World σ}
    (idle : tracksInstalled config = true → records.filter isSuccessfulRemoval = [])
    {rounds : Nat} {removed : List TransactionRecord} {after : World σ}
    (cleaned : removeOrphanedDependencies host config rounds records world = some (removed, after)) :
    removed = [] ∧ after = world := by
  cases rounds with
  | zero => simp [removeOrphanedDependencies] at cleaned
  | succ rounds =>
      cases tracked : tracksInstalled config with
      | false =>
          simp only [removeOrphanedDependencies, tracked, Bool.false_eq_true, if_false,
            Option.some.injEq, Prod.mk.injEq] at cleaned
          exact ⟨cleaned.1.symm, cleaned.2.symm⟩
      | true =>
          have round : orphanRound host config records world = ([], world) := by
            simp [orphanRound, orphanedPackages, idle tracked, orphanGroups, stableSort, removeOrphanGroups]
          simp only [removeOrphanedDependencies, tracked, if_true, round, List.isEmpty_nil,
            Option.some.injEq, Prod.mk.injEq] at cleaned
          exact ⟨cleaned.1.symm, cleaned.2.symm⟩

end History

section Calls

theorem executeTaskGroup_extends (runId : String) (group : TaskGroup) (world : World σ) :
    Extends world (executeTaskGroup host config runId group world).2 := by
  have frame : ExecutionFrame host config runId group world _ := executeTaskGroup_frame group world
  obtain ⟨made, calls, _⟩ := frame.calls
  obtain ⟨sent, gatewayCalls, _⟩ := frame.gatewayCalls
  exact ⟨⟨made, calls.symm⟩, ⟨sent, gatewayCalls.symm⟩⟩

theorem removeOrphanGroups_extends (groups : List TaskGroup) (world : World σ) :
    Extends world (removeOrphanGroups host config groups world).2 := by
  refine foldl_respects (fun before after => Extends before.2 after.2)
    (fun state => .refl state.2) (fun _ _ _ => .trans) (fun state group => ?_) _
    (([] : List TransactionRecord), world)
  exact executeTaskGroup_extends host config "" group state.2

/-- Behind its removal groups a round only writes the history. -/
theorem orphanRound_touches (records : List TransactionRecord) (world : World σ) :
    TouchesHistory
      (removeOrphanGroups host config (orphanGroups (orphanedPackages host world.plugins
        world.installed.loadInstalledState records)) world).2
      (orphanRound host config records world).2 := by
  simp only [orphanRound]
  split
  · rfl
  · have recorded := recordHistory_touches host config
    exact (recorded _ _).trans (subtractDependencyOwnership_touches host config _ _)

theorem orphanRound_extends (records : List TransactionRecord) (world : World σ) :
    Extends world (orphanRound host config records world).2 :=
  (removeOrphanGroups_extends host config _ world).trans
    (orphanRound_touches host config records world).extends

variable {host config} in
theorem removeOrphanedDependencies_extends {fuel : Nat} {records removed : List TransactionRecord}
    {world after : World σ}
    (cleaned : removeOrphanedDependencies host config fuel records world = some (removed, after)) :
    Extends world after := by
  induction fuel generalizing records removed world after with
  | zero => simp [removeOrphanedDependencies] at cleaned
  | succ fuel ih =>
      simp only [removeOrphanedDependencies] at cleaned
      split at cleaned
      · have first := orphanRound_extends host config records world
        split at cleaned
        · simp only [Option.some.injEq] at cleaned
          rw [cleaned] at first
          exact first
        · simp only [Option.map_eq_some_iff] at cleaned
          obtain ⟨⟨nested, final⟩, deeper, same⟩ := cleaned
          cases same
          exact first.trans (ih deeper)
      · cases cleaned
        exact .refl world

theorem filterGroup_touches (group : TaskGroup) (world : World σ) :
    TouchesPlugins world (filterGroup host group world).2 := by
  simp only [filterGroup]
  repeat' split
  all_goals rfl

theorem filterExecutable_touches (groups : List TaskGroup) (world : World σ) :
    TouchesPlugins world (filterExecutable host groups world).2 := by
  refine foldl_respects (fun before after => TouchesPlugins before.2 after.2)
    (fun state => .refl state.2) (fun _ _ _ => .trans) (fun state group => ?_) _
    (([] : List TaskGroup), world)
  exact filterGroup_touches host group state.2

theorem finishTransactions_calls (records : List TransactionRecord) (world : World σ) :
    finishTransactions host config records world =
      { world with
        journal := (finishTransactions host config records world).journal
        activeRunId := (finishTransactions host config records world).activeRunId } := by
  simp only [finishTransactions, deleteCommittedTransactions]
  split
  · split <;> rfl
  · rfl

end Calls

end ReqPack.Executor
