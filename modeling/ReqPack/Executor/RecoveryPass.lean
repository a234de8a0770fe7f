import ReqPack.Scheduler.InOrder
import ReqPack.Executor.DispatchCases
import ReqPack.Executor.Reconcile

/-! # One pass of the recovery

What `recoverPendingTaskGroups` leaves to execute, and what executing it does to
the journal.
-/

namespace ReqPack.Executor

open ReqPack.Data ReqPack.Core ReqPack.Scheduler

variable {σ : Type} {host : Host σ} {config : ExecutionConfig} {runId : String}

/-- A journal whose active run was left behind unfinished. -/
structure InterruptedRun (actionCode : ActionType → Nat) (journal : Journal) (runId : String) : Prop where
  active : journal.activeRun = some runId
  named : runId ≠ ""
  stored : ∃ run, journal.runs runId = some run ∧ run.state ≠ .committed
  distinctIds : ((journal.items runId).map fun item => itemId actionCode item.package).Nodup

/-- The items recovery still has to deal with, in the order of the run. -/
def pendingItems (journal : Journal) (runId : String) : List JournalItem :=
  (journal.getRunItems runId).filter fun item => !item.status.settled

theorem mem_pendingItems {journal : Journal} {item : JournalItem} :
    item ∈ pendingItems journal runId ↔ item ∈ journal.items runId ∧ item.status.settled = false := by
  rw [pendingItems, List.mem_filter, Journal.mem_getRunItems, Bool.not_eq_true']

section Keys

variable {actionCode : ActionType → Nat} {journal : Journal}

theorem InterruptedRun.eq_of_itemId (run : InterruptedRun actionCode journal runId)
    {first second : JournalItem} (firstMember : first ∈ journal.items runId)
    (secondMember : second ∈ journal.items runId)
    (same : itemId actionCode first.package = itemId actionCode second.package) : first = second :=
  List.inj_on_of_nodup_map run.distinctIds firstMember secondMember same

/-- No item under the key of one of the packages is dealt with. -/
def Open (actionCode : ActionType → Nat) (packages : List Package) (items : List JournalItem) : Prop :=
  ∀ item ∈ items, itemId actionCode item.package ∈ packages.map (itemId actionCode) →
    item.status.settled = false

theorem Open.running {packages part : List Package} {items : List JournalItem}
    (isOpen : Open actionCode packages items) (inside : ∀ package ∈ part, package ∈ packages)
    (errorMessage : String) :
    Advances items (Journal.setStatus actionCode part .running errorMessage) ∧
      Open actionCode packages (items.map (Journal.setStatus actionCode part .running errorMessage)) := by
  refine ⟨⟨setStatus_sequence _ _ _, Journal.setStatus_package _ _ _, fun item member done => ?_⟩, ?_⟩
  · rw [setStatus_status]
    split
    · rename_i listed
      obtain ⟨package, present, same⟩ := List.mem_map.mp listed
      have pending := isOpen item member (List.mem_map.mpr ⟨package, inside package present, same⟩)
      simp [pending] at done
    · exact done
  · intro item member listed
    obtain ⟨old, present, rfl⟩ := List.mem_map.mp member
    rw [Journal.setStatus_package] at listed
    rw [setStatus_status]
    split
    · rfl
    · exact isOpen old present listed

end Keys

section Execution

variable {packages : List Package}

/-- Executing a group marks items of the group at most, and marks them as running. -/
theorem executeTaskGroup_open (config : ExecutionConfig) {group : TaskGroup} (world : World σ)
    (inside : ∀ package ∈ group.packages, package ∈ packages)
    (isOpen : Open host.actionCode packages (world.journal.items runId)) :
    Advanced runId world.journal (executeTaskGroup host config runId group world).2.journal ∧
      Open host.actionCode packages
        ((executeTaskGroup host config runId group world).2.journal.items runId) := by
  have frame : ExecutionFrame host config runId group world _ := executeTaskGroup_frame group world
  rcases frame.journal with same | marked
  · rw [same]
    exact ⟨.refl runId _, isOpen⟩
  · rw [updateItemsStatus_eq_withItems marked]
    obtain ⟨advances, stillOpen⟩ := isOpen.running inside ""
    exact ⟨⟨_, advances, rfl⟩, by rw [withItems_items]; exact stillOpen⟩

theorem runInOrder_open {groups : List TaskGroup} (world : World σ)
    (inside : ∀ group ∈ groups, ∀ package ∈ group.packages, package ∈ packages)
    (isOpen : Open host.actionCode packages (world.journal.items runId)) :
    Advanced runId world.journal (runInOrder config.stopOnFirstFailure
        (executeTaskGroup host config runId) groups world).2.journal ∧
      Open host.actionCode packages ((runInOrder config.stopOnFirstFailure
        (executeTaskGroup host config runId) groups world).2.journal.items runId) := by
  induction groups generalizing world with
  | nil => exact ⟨.refl runId _, isOpen⟩
  | cons group groups ih =>
      obtain ⟨advanced, stillOpen⟩ := executeTaskGroup_open config world
        (inside group List.mem_cons_self) isOpen
      rw [runInOrder]
      simp only
      split
      · exact ⟨advanced, stillOpen⟩
      · obtain ⟨further, final⟩ := ih _
          (fun other member => inside other (List.mem_cons_of_mem _ member)) stillOpen
        exact ⟨advanced.trans further, final⟩

theorem runInOrder_activeRunId (groups : List TaskGroup) (world : World σ) :
    (runInOrder config.stopOnFirstFailure (executeTaskGroup host config runId) groups world).2.activeRunId =
      world.activeRunId := by
  refine runInOrder_respects (fun before after : World σ => after.activeRunId = before.activeRunId)
    (fun _ => rfl) (fun _ _ _ first second => second.trans first) (fun group before => ?_) _ groups world
  exact (executeTaskGroup_execution host config runId group before).frame.activeRunId

/-- Every record of the walk is a record of a package of one of the groups. -/
theorem mem_runInOrder {groups : List TaskGroup} {world : World σ} {record : TransactionRecord}
    (member : record ∈ (runInOrder config.stopOnFirstFailure (executeTaskGroup host config runId)
      groups world).1) :
    ∃ group ∈ groups, ∃ package ∈ group.packages, ∃ status message,
      record = makeRecord group runId status message package ∧ status ≠ .skipped := by
  obtain ⟨_, group, before, visits, listed⟩ := mem_runInOrder_visits member
  exact ⟨group, visits.mem, (executeTaskGroup_execution host config runId group before).record_of listed⟩

/-- The first group is executed in any case, so all its packages get a record. -/
theorem runInOrder_covers_first (posix : config.platform = .posix) {group : TaskGroup}
    (groups : List TaskGroup) (world : World σ) {package : Package} (member : package ∈ group.packages) :
    ∃ status message, makeRecord group runId status message package ∈
      (runInOrder config.stopOnFirstFailure (executeTaskGroup host config runId)
        (group :: groups) world).1 := by
  have kept : softSkipsNix host config group = false := by
    simp [softSkipsNix, posix, Platform.softSkipNixInstalls]
  obtain ⟨status, message, listed⟩ :=
    (executeTaskGroup_execution host config runId group world).covers kept member
  refine ⟨status, message, ?_⟩
  rw [runInOrder]
  simp only
  split
  · exact listed
  · exact List.mem_append_left _ listed

end Execution

section Groups

variable {flags : List String} {items : List JournalItem}

theorem recoveredGroups_packages (flags : List String) (items : List JournalItem) :
    (recoveredGroups flags items).flatMap (·.packages) = items.map (·.package) := by
  rw [recoveredGroups, List.flatMap_map]
  exact groupAdjacent_packages _

theorem mem_of_mem_recoveredGroups {group : TaskGroup} (member : group ∈ recoveredGroups flags items)
    {package : Package} (listed : package ∈ group.packages) : package ∈ items.map (·.package) := by
  rw [← recoveredGroups_packages flags items]
  exact List.mem_flatMap.mpr ⟨group, member, listed⟩

theorem recoveredGroups_coherent {group : TaskGroup} (member : group ∈ recoveredGroups flags items) :
    group.Coherent := by
  obtain ⟨plain, grouped, rfl⟩ := List.mem_map.mp member
  have coherent := groupAdjacent_coherent _ plain grouped
  exact ⟨coherent.nonempty, coherent.action, coherent.system, coherent.usesLocalTarget,
    coherent.localPath, coherent.plugin, coherent.pluginLoadFailed⟩

/-- The first item goes into the first group. -/
theorem recoveredGroups_cons (flags : List String) (item : JournalItem) (items : List JournalItem) :
    ∃ group groups, recoveredGroups flags (item :: items) = group :: groups ∧
      item.package ∈ group.packages := by
  have flat := recoveredGroups_packages flags (item :: items)
  cases all : recoveredGroups flags (item :: items) with
  | nil => simp [all] at flat
  | cons group groups =>
      refine ⟨group, groups, rfl, ?_⟩
      have coherent : group.Coherent := recoveredGroups_coherent (all ▸ List.mem_cons_self)
      cases held : group.packages with
      | nil => exact absurd held coherent.nonempty
      | cons first rest =>
          rw [all, List.flatMap_cons, held, List.cons_append, List.map_cons] at flat
          rw [(List.cons.inj flat).1]
          exact List.mem_cons_self

end Groups

section Pass

variable {world : World σ}

@[simp] theorem markRunState_items (journal : Journal) (runId : String) (state : RunState) :
    (journal.markRunState runId state).items = journal.items := by
  unfold Journal.markRunState
  split <;> rfl

@[simp] theorem markRunState_activeRun (journal : Journal) (runId : String) (state : RunState) :
    (journal.markRunState runId state).activeRun = journal.activeRun := by
  unfold Journal.markRunState
  split <;> rfl

theorem markRunState_runs {journal : Journal} {record : RunRecord} (known : journal.runs runId = some record)
    (state : RunState) :
    (journal.markRunState runId state).runs runId = some { record with state := state } := by
  simp [Journal.markRunState, known]

theorem markRunCommitted_activeRun {journal : Journal} (active : journal.activeRun = some runId) :
    (journal.markRunCommitted runId).activeRun = none := by
  simp [Journal.markRunCommitted, Journal.clearActive, active]

theorem deleteRun_activeRun {journal : Journal} (free : journal.activeRun = none) (runId : String) :
    (journal.deleteRun runId).activeRun = none := by
  unfold Journal.deleteRun
  split
  · exact free
  · simp [Journal.clearActive, free]

/-- The world in which the recovered groups are executed. -/
def resumedWorld (host : Host σ) (runId : String) (done : List JournalItem) (plugins : σ)
    (world : World σ) : World σ :=
  { world with
    plugins := plugins
    activeRunId := runId
    journal := (world.journal.withItems runId
      (Journal.setStatus host.actionCode (done.map (·.package)) .success "")).markRunState runId .recovered }

/-- Recovery ends the run when nothing is left of it, and otherwise resumes it with
the items it kept. -/
theorem recoverPendingTaskGroups_cases (config : ExecutionConfig)
    (run : InterruptedRun host.actionCode world.journal runId) :
    ∃ kept done plugins record,
      kept.Sublist (recoveryOrder host world.plugins (pendingItems world.journal runId)) ∧
      (kept ++ done).Perm (recoveryOrder host world.plugins (pendingItems world.journal runId)) ∧
      (∀ item ∈ done, NoLongerMissing host item.package) ∧
      world.journal.runs runId = some record ∧ record.state ≠ .committed ∧
      ((kept = [] ∧ (recoverPendingTaskGroups host config world).1 = [] ∧
          (recoverPendingTaskGroups host config world).2.calls = world.calls ∧
          (recoverPendingTaskGroups host config world).2.journal.activeRun = none) ∨
        (kept ≠ [] ∧ recoverPendingTaskGroups host config world =
          (recoveredGroups record.flags kept, resumedWorld host runId done plugins world))) := by
  obtain ⟨record, known, unfinished⟩ := run.stored
  have found : world.journal.getActiveRun = some (runId, record) :=
    Journal.getActiveRun_eq_some.2 ⟨run.active, run.named, known⟩
  obtain ⟨done, plugins, sublist, perm, there, left⟩ := reconcileRecoveredItems_spec host runId
    (pendingItems world.journal runId) { world with activeRunId := runId }
  refine ⟨_, done, plugins, record, sublist, perm, there, known, unfinished, ?_⟩
  simp only [recoverPendingTaskGroups, found, unfinished, if_false]
  rw [← pendingItems]
  cases nothing : (reconcileRecoveredItems host runId (pendingItems world.journal runId)
      { world with activeRunId := runId }).1.isEmpty with
  | true =>
      refine Or.inl ⟨List.isEmpty_iff.mp nothing, by simp, by simp [left], ?_⟩
      have active : (reconcileRecoveredItems host runId (pendingItems world.journal runId)
          { world with activeRunId := runId }).2.journal.activeRun = some runId := by
        rw [left]
        exact run.active
      simp only [if_true]
      split
      · exact deleteRun_activeRun (markRunCommitted_activeRun active) runId
      · exact markRunCommitted_activeRun active
  | false =>
      refine Or.inr ⟨fun empty => by simp [empty] at nothing, ?_⟩
      simp only [Bool.false_eq_true, if_false, left]
      rfl

/-- The packages that are kept are still open when their groups are executed. -/
theorem resumedWorld_open (run : InterruptedRun host.actionCode world.journal runId)
    {kept done : List JournalItem} (plugins : σ)
    (perm : (kept ++ done).Perm (pendingItems world.journal runId)) :
    Open host.actionCode (kept.map (·.package))
      ((resumedWorld host runId done plugins world).journal.items runId) := by
  intro item member listed
  simp only [resumedWorld, markRunState_items, withItems_items, List.mem_map] at member
  obtain ⟨old, present, rfl⟩ := member
  rw [Journal.setStatus_package, List.map_map, List.mem_map] at listed
  obtain ⟨keptItem, isKept, same⟩ := listed
  have pending := mem_pendingItems.1 (perm.subset (List.mem_append_left done isKept))
  obtain rfl := run.eq_of_itemId pending.1 present same
  rw [setStatus_status, if_neg]
  · exact pending.2
  -- An item that was settled has another key, because the keys of a run differ.
  · intro settled
    rw [List.map_map, List.mem_map] at settled
    obtain ⟨doneItem, isDone, sameId⟩ := settled
    have doneMember := mem_pendingItems.1 (perm.subset (List.mem_append_right kept isDone))
    obtain rfl := run.eq_of_itemId doneMember.1 present sameId
    have itemsNodup : (world.journal.items runId).Nodup := List.Nodup.of_map _ run.distinctIds
    have pendingNodup : (pendingItems world.journal runId).Nodup :=
      ((world.journal.getRunItems_perm runId).nodup_iff.mpr itemsNodup).filter _
    exact (List.nodup_append.mp (perm.nodup_iff.mpr pendingNodup)).2.2 _ isKept _ isDone rfl

/-- The systems of the items are plugin names as the registry resolves them. -/
def ResolvedSystems (host : Host σ) (items : List JournalItem) : Prop :=
  ∀ item ∈ items, host.resolvePluginName item.package.system = item.package.system

/-- The execution of the items that were kept. -/
def resumedRun (host : Host σ) (config : ExecutionConfig) (runId : String) (flags : List String)
    (kept done : List JournalItem) (plugins : σ) (world : World σ) : List TransactionRecord × World σ :=
  runInOrder config.stopOnFirstFailure (executeTaskGroup host config runId) (recoveredGroups flags kept)
    (resumedWorld host runId done plugins world)

/-- A pass that resumes the run. -/
structure ResumedPass (host : Host σ) (config : ExecutionConfig) (runId : String) (world : World σ)
    (flags : List String) (kept done : List JournalItem) (plugins : σ) : Prop where
  nonempty : kept ≠ []
  sublist : kept.Sublist (recoveryOrder host world.plugins (pendingItems world.journal runId))
  perm : (kept ++ done).Perm (pendingItems world.journal runId)
  reconciled : ∀ item ∈ done, NoLongerMissing host item.package
  recovered : recoverPendingTaskGroups host config world =
    (recoveredGroups flags kept, resumedWorld host runId done plugins world)
  finished : recoverInterruptedRun host config world =
    finishTransactions host config (resumedRun host config runId flags kept done plugins world).1
      (resumedRun host config runId flags kept done plugins world).2

theorem executeRecoveredGroups_eq (groups : List TaskGroup) (world : World σ) :
    executeRecoveredGroups host config groups runId world =
      runInOrder config.stopOnFirstFailure (executeTaskGroup host config runId) groups world :=
  runSequential_inOrder _ _ config.platform host.resolvePluginName groups world

/-- A pass over an interrupted run ends it or resumes it. -/
theorem recoverInterruptedRun_cases (config : ExecutionConfig)
    (run : InterruptedRun host.actionCode world.journal runId)
    (resolved : ResolvedSystems host (world.journal.items runId)) :
    ((recoverInterruptedRun host config world).journal.activeRun = none ∧
        (recoverInterruptedRun host config world).calls = world.calls) ∨
      ∃ flags kept done plugins, ResumedPass host config runId world flags kept done plugins := by
  obtain ⟨kept, done, plugins, stored, sublist, perm, there, known, _,
    ⟨_, nothing, calls, ended⟩ | ⟨some, recovered⟩⟩ := recoverPendingTaskGroups_cases config run
  · left
    simpa [recoverInterruptedRun, nothing] using ⟨ended, calls⟩
  · right
    have order := perm.trans (recoveryOrder_perm world.plugins fun item member =>
      resolved item (mem_pendingItems.1 member).1)
    refine ⟨stored.flags, kept, done, plugins, some, sublist, order, there, recovered, ?_⟩
    obtain ⟨first, rest, rfl⟩ := List.exists_cons_of_ne_nil some
    obtain ⟨group, groups, grouped, _⟩ := recoveredGroups_cons stored.flags first rest
    have busy : (recoveredGroups stored.flags (first :: rest)).isEmpty = false := by simp [grouped]
    have named : (resumedWorld host runId done plugins world).activeRunId.isEmpty = false := by
      simpa [resumedWorld] using run.named
    simp only [recoverInterruptedRun, recovered, busy, named, Bool.not_false, Bool.and_self, if_true,
      executeRecoveredGroups_eq]
    rfl

section Resumed

variable {flags : List String} {kept done : List JournalItem} {plugins : σ}

/-- While the groups are executed, items are marked as running and nothing else. -/
theorem ResumedPass.advanced (pass : ResumedPass host config runId world flags kept done plugins)
    (run : InterruptedRun host.actionCode world.journal runId) :
    Advanced runId (resumedWorld host runId done plugins world).journal
      (resumedRun host config runId flags kept done plugins world).2.journal :=
  (runInOrder_open (resumedWorld host runId done plugins world)
    (fun _ member _ listed => mem_of_mem_recoveredGroups member listed)
    (resumedWorld_open run plugins pass.perm)).1

theorem resumedRun_activeRunId :
    (resumedRun host config runId flags kept done plugins world).2.activeRunId = runId :=
  runInOrder_activeRunId _ _

theorem resumedRun_final : Final (resumedRun host config runId flags kept done plugins world).1 := by
  intro record member
  obtain ⟨_, _, _, _, _, _, rfl, final⟩ := mem_runInOrder member
  exact final

/-- Where the items stand when the records are about to be written. -/
theorem ResumedPass.journal (pass : ResumedPass host config runId world flags kept done plugins)
    (run : InterruptedRun host.actionCode world.journal runId) :
    ∃ change stored, Advances (world.journal.items runId) change ∧
      (resumedRun host config runId flags kept done plugins world).2.journal.items runId =
        (world.journal.items runId).map change ∧
      (resumedRun host config runId flags kept done plugins world).2.journal.activeRun = some runId ∧
      (resumedRun host config runId flags kept done plugins world).2.journal.runs runId = some stored := by
  obtain ⟨marked, marks, left⟩ := pass.advanced run
  obtain ⟨stored, known, _⟩ := run.stored
  have reconciled := setStatus_advances host.actionCode (world.journal.items runId)
    (done.map (·.package)) "" (show ItemStatus.success.settled = true from rfl)
  have resumedItems : (resumedWorld host runId done plugins world).journal.items runId =
      (world.journal.items runId).map
        (Journal.setStatus host.actionCode (done.map (·.package)) .success "") := by
    simp [resumedWorld]
  rw [resumedItems] at marks
  refine ⟨_, { stored with state := .recovered }, reconciled.comp marks, ?_, ?_, ?_⟩
  · rw [left, withItems_items, resumedItems, List.map_map]
  · rw [left, withItems_activeRun]
    simpa [resumedWorld] using run.active
  · rw [left, withItems_runs]
    exact markRunState_runs (by exact known) .recovered

end Resumed

end Pass

section Finish

variable {σ : Type} {runId : String} {world : World σ}

/-- Writing the records ends the run, or leaves it with the records written. -/
theorem finishTransactions_cases (host : Host σ) (config : ExecutionConfig) (named : runId ≠ "")
    (current : world.activeRunId = runId)
    (active : world.journal.activeRun = some runId) {stored : RunRecord}
    (known : world.journal.runs runId = some stored) (records : List TransactionRecord) :
    (finishTransactions host config records world).journal.activeRun = none ∨
      (finishTransactions host config records world).journal =
        (world.journal.withItems runId
          (recordChange host.actionCode (world.journal.getRunItems runId) records)).markRunState
            runId .failed := by
  have open_ : runId.isEmpty = false := by simpa using named
  simp only [finishTransactions, current, writeTransactionResults_eq_withItems named]
  generalize written : world.journal.withItems runId
    (recordChange host.actionCode (world.journal.getRunItems runId) records) = journal
  have stillActive : journal.activeRun = some runId := by rw [← written]; exact active
  have stillKnown : journal.runs runId = some stored := by rw [← written]; exact known
  cases finished : ((journal.getRunItems runId).all fun item =>
      item.status == .success || item.status == .committed) with
  | true =>
      left
      simp only [markCommittedTransactions, open_, Bool.false_eq_true, if_false, finished, if_true]
      split
      · simp only [deleteCommittedTransactions]
        split
        · exact markRunCommitted_activeRun stillActive
        · exact deleteRun_activeRun (markRunCommitted_activeRun stillActive) _
      · exact markRunCommitted_activeRun stillActive
  | false =>
      right
      simp only [markCommittedTransactions, open_, Bool.false_eq_true, if_false, finished]
      have stillThere : (journal.markRunState runId .failed).getActiveRun =
          some (runId, { stored with state := .failed }) := by
        rw [Journal.getActiveRun_eq_some, markRunState_activeRun]
        exact ⟨stillActive, named, markRunState_runs stillKnown _⟩
      split
      · simp [deleteCommittedTransactions, stillThere]
      · rfl

end Finish

/-- What a record carries of its package. -/
def recordKey (package : Package) : ActionType × String × String × String :=
  (package.action, package.system, package.name, package.version)

/-- The items of the run can be told apart by what a record carries. -/
def DistinctRecordKeys (items : List JournalItem) : Prop :=
  (items.map fun item => recordKey item.package).Nodup

section Outcome

variable {world : World σ} {flags : List String} {kept done : List JournalItem} {plugins : σ}

/-- What a pass that does not end the run does to its items: `change` while the
groups are executed, the records afterwards. -/
structure PassOutcome (host : Host σ) (config : ExecutionConfig) (runId : String) (world : World σ)
    (records : List TransactionRecord) (executed : List JournalItem) (change : JournalItem → JournalItem)
    (runItems : List JournalItem) : Prop where
  advances : Advances (world.journal.items runId) change
  executed : executed = (world.journal.items runId).map change
  perm : runItems.Perm ((world.journal.items runId).map change)
  items : (recoverInterruptedRun host config world).journal.items runId =
    (world.journal.items runId).map (recordChange host.actionCode runItems records ∘ change)
  final : Final records
  active : (recoverInterruptedRun host config world).journal.activeRun = some runId
  stored : ∃ run, (recoverInterruptedRun host config world).journal.runs runId = some run ∧
    run.state ≠ .committed

theorem ResumedPass.outcome (pass : ResumedPass host config runId world flags kept done plugins)
    (run : InterruptedRun host.actionCode world.journal runId) :
    (recoverInterruptedRun host config world).journal.activeRun = none ∨
      ∃ change runItems, PassOutcome host config runId world
        (resumedRun host config runId flags kept done plugins world).1
        ((resumedRun host config runId flags kept done plugins world).2.journal.items runId)
        change runItems := by
  obtain ⟨change, stored, advances, items, active, known⟩ := pass.journal run
  rcases finishTransactions_cases host config run.named resumedRun_activeRunId active known
    (resumedRun host config runId flags kept done plugins world).1 with ended | written
  · rw [pass.finished]
    exact Or.inl ended
  right
  refine ⟨change, (resumedRun host config runId flags kept done plugins world).2.journal.getRunItems runId,
    advances, items, ?_, ?_, resumedRun_final, ?_, { stored with state := .failed }, ?_, by simp⟩
  · rw [← items]
    exact Journal.getRunItems_perm _ runId
  · rw [pass.finished, written, markRunState_items, withItems_items, items, List.map_map]
  · rw [pass.finished, written, markRunState_activeRun, withItems_activeRun]
    exact active
  · rw [pass.finished, written]
    exact markRunState_runs (by exact known) .failed

/-- A pass that does not end the run has resumed it. -/
theorem recoverInterruptedRun_outcome (run : InterruptedRun host.actionCode world.journal runId)
    (resolved : ResolvedSystems host (world.journal.items runId))
    (active : (recoverInterruptedRun host config world).journal.activeRun ≠ none) :
    ∃ flags kept done plugins, ResumedPass host config runId world flags kept done plugins ∧
      ∃ change runItems, PassOutcome host config runId world
        (resumedRun host config runId flags kept done plugins world).1
        ((resumedRun host config runId flags kept done plugins world).2.journal.items runId)
        change runItems := by
  rcases recoverInterruptedRun_cases config run resolved with
    ⟨ended, _⟩ | ⟨flags, kept, done, plugins, pass⟩
  · exact absurd ended active
  · rcases pass.outcome run with ended | outcome
    · exact absurd ended active
    · exact ⟨flags, kept, done, plugins, pass, outcome⟩

namespace PassOutcome

variable {records : List TransactionRecord} {executed runItems : List JournalItem}
  {change : JournalItem → JournalItem}

theorem packages (outcome : PassOutcome host config runId world records executed change runItems) :
    ((recoverInterruptedRun host config world).journal.items runId).map (·.package) =
      (world.journal.items runId).map (·.package) := by
  rw [outcome.items]
  exact (outcome.advances.comp (recordChange_advances host.actionCode outcome.final runItems _)).map_package

theorem run (outcome : PassOutcome host config runId world records executed change runItems)
    (before : InterruptedRun host.actionCode world.journal runId) :
    InterruptedRun host.actionCode (recoverInterruptedRun host config world).journal runId := by
  refine ⟨outcome.active, before.named, outcome.stored, ?_⟩
  have ids := congrArg (List.map (itemId host.actionCode)) outcome.packages
  simp only [List.map_map, Function.comp_def] at ids
  rw [ids]
  exact before.distinctIds

theorem distinctRecordKeys (outcome : PassOutcome host config runId world records executed change runItems)
    (distinct : DistinctRecordKeys (world.journal.items runId)) : DistinctRecordKeys runItems := by
  have keys : ((world.journal.items runId).map change).map (fun item => recordKey item.package) =
      (world.journal.items runId).map fun item => recordKey item.package := by
    simp [Function.comp_def, outcome.advances.package]
  exact ((outcome.perm.map _).nodup_iff).mpr (keys ▸ distinct)

end PassOutcome

end Outcome

end ReqPack.Executor
