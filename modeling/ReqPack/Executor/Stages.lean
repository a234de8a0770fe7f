import ReqPack.Executor.ExecuteCases
import ReqPack.Executor.RecoveryPass

/-! # The stages of a call

Recovery comes first and may be all a call does.  Neither recovery nor the groups
of the graph write the installed state or the history; that is left to the stages
behind them.
-/

namespace ReqPack.Executor

open ReqPack.Data ReqPack.Core ReqPack.Scheduler

variable {σ : Type} {host : Host σ} {config : ExecutionConfig}

/-- The world in which the groups of the graph are planned; a call that could not
recover an interrupted run plans none. -/
def recoveredWorld (host : Host σ) (config : ExecutionConfig) (world : World σ) : Option (World σ) :=
  if config.useTransactionDb then
    let recovered := recoverInterruptedRun host config world
    if recovered.journal.getActiveRun.isSome then none else some { recovered with activeRunId := "" }
  else some world

section Cases

variable {inputAlreadyFiltered : Bool} {graph : Graph} {script : ExecuteScript} {world : World σ}

/-- A call gives up behind the recovery, or goes on with the groups of its graph. -/
theorem execute_cases {result : ExecuteResult σ}
    (done : execute host config inputAlreadyFiltered graph script world = some result) :
    (config.useTransactionDb = true ∧ (result.ok = false ∧ result.records = []) ∧
        result.world = recoverInterruptedRun host config world) ∨
      ∃ recovered, recoveredWorld host config world = some recovered ∧
        executeGraph host config inputAlreadyFiltered graph script recovered = some result := by
  unfold execute at done
  cases journaled : config.useTransactionDb with
  | false =>
      simp only [journaled, Bool.false_eq_true, if_false] at done
      exact Or.inr ⟨world, by simp [recoveredWorld, journaled], done⟩
  | true =>
      simp only [journaled, if_true] at done
      split at done
      · cases done
        exact Or.inl ⟨rfl, ⟨rfl, rfl⟩, rfl⟩
      · rename_i free
        exact Or.inr ⟨_, by simp [recoveredWorld, journaled, free], done⟩

end Cases

section Untouched

/-- The installed state and the history are as they were. -/
structure LeavesInstalled (before after : World σ) : Prop where
  installed : after.installed = before.installed
  ownedOnce : after.ownedOnce = before.ownedOnce
  history : after.history = before.history

theorem LeavesInstalled.refl (world : World σ) : LeavesInstalled world world := ⟨rfl, rfl, rfl⟩

theorem LeavesInstalled.trans {first second third : World σ} (earlier : LeavesInstalled first second)
    (later : LeavesInstalled second third) : LeavesInstalled first third :=
  ⟨later.installed.trans earlier.installed, later.ownedOnce.trans earlier.ownedOnce,
    later.history.trans earlier.history⟩

theorem TouchesPlugins.leavesInstalled {before after : World σ} (touches : TouchesPlugins before after) :
    LeavesInstalled before after := by
  unfold TouchesPlugins at touches
  rw [touches]
  exact ⟨rfl, rfl, rfl⟩

theorem executeTaskGroup_leavesInstalled (runId : String) (group : TaskGroup) (world : World σ) :
    LeavesInstalled world (executeTaskGroup host config runId group world).2 := by
  have frame : ExecutionFrame host config runId group world _ := executeTaskGroup_frame group world
  exact ⟨frame.installed, frame.ownedOnce, frame.history⟩

theorem finishTransactions_leavesInstalled (records : List TransactionRecord) (world : World σ) :
    LeavesInstalled world (finishTransactions host config records world) := by
  rw [finishTransactions_calls]
  exact ⟨rfl, rfl, rfl⟩

theorem recoverInterruptedRun_leavesInstalled (host : Host σ) (config : ExecutionConfig) (world : World σ) :
    LeavesInstalled world (recoverInterruptedRun host config world) := by
  have pending : LeavesInstalled world (recoverPendingTaskGroups host config world).2 := by
    simp only [recoverPendingTaskGroups]
    cases world.journal.getActiveRun with
    | none => exact .refl world
    | some found =>
        obtain ⟨runId, run⟩ := found
        dsimp only
        split
        · exact .refl world
        · obtain ⟨done, plugins, _, _, _, left⟩ := reconcileRecoveredItems_spec host runId
            (pendingItems world.journal runId) { world with activeRunId := runId }
          rw [← pendingItems, left]
          split <;> exact ⟨rfl, rfl, rfl⟩
  unfold recoverInterruptedRun
  dsimp only
  split
  · rw [executeRecoveredGroups_eq]
    refine (pending.trans ?_).trans (finishTransactions_leavesInstalled _ _)
    exact runInOrder_respects LeavesInstalled LeavesInstalled.refl (fun _ _ _ => LeavesInstalled.trans)
      (fun group before => executeTaskGroup_leavesInstalled _ group before) _ _ _
  · exact pending

theorem recoveredWorld_leavesInstalled {world recovered : World σ}
    (entered : recoveredWorld host config world = some recovered) : LeavesInstalled world recovered := by
  unfold recoveredWorld at entered
  split at entered
  · simp only at entered
    split at entered
    · simp at entered
    · cases entered
      exact (recoverInterruptedRun_leavesInstalled host config world).trans ⟨rfl, rfl, rfl⟩
  · cases entered
    exact .refl world

/-- Up to the end of the main pass nothing is written. -/
theorem mainPass_leavesInstalled {inputAlreadyFiltered : Bool} {graph : Graph} {script : ExecuteScript}
    {world opened : World σ} {groups : List TaskGroup} {run : RunResult (World σ)}
    (created : openRun host config groups
      (plannedGroups host config inputAlreadyFiltered graph script.sorted world).2 = some opened)
    (ran : ParallelTaskScheduler.run config.stopOnFirstFailure
      (executeTaskGroup host config opened.activeRunId) config.platform host.resolvePluginName
      groups (some graph) config.jobs script.events opened = some run) :
    LeavesInstalled world run.world := by
  have planned :=
    (plannedGroups_touches host config inputAlreadyFiltered graph script.sorted world).leavesInstalled
  have opens : LeavesInstalled
      (plannedGroups host config inputAlreadyFiltered graph script.sorted world).2 opened := by
    rw [openRun_world created]
    exact ⟨rfl, rfl, rfl⟩
  obtain ⟨executed, _⟩ := runPlans_worlds LeavesInstalled.refl (fun _ _ _ => LeavesInstalled.trans)
    (executeTaskGroup_leavesInstalled opened.activeRunId) ran
  exact (planned.trans opens).trans executed

end Untouched

end ReqPack.Executor
