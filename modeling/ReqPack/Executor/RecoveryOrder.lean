import ReqPack.Executor.Frames
import ReqPack.Executor.Progress

/-! # Recovery and the order of the graph

The journal keeps the packages of a run and forgets the graph.  A recovery pass
walks over what is left in an order of its own, so it comes to a package behind
its dependencies only where that order, or a failure that stops it, makes it so.
-/

namespace ReqPack.Executor

open ReqPack.Data ReqPack.Core ReqPack.Scheduler

section Statement

variable {σ : Type} (host : Host σ) (config : ExecutionConfig) (runId : String) (world : World σ)

/-- The recovery comes to the group in the world `before`, behind the groups `earlier`. -/
def Recovers (earlier : List TaskGroup) (group : TaskGroup) (before : World σ) : Prop :=
  Visits config.stopOnFirstFailure (executeTaskGroup host config runId)
    (recoverPendingTaskGroups host config world).1 (recoverPendingTaskGroups host config world).2
    earlier group before

/-- The recovery wrote a pending package down as done because its plugin did not
report it missing. -/
structure ReconciledIn (package : Package) : Prop where
  pending : package ∈ (pendingItems world.journal runId).map (·.package)
  there : NoLongerMissing host package
  written : ∃ item ∈ (recoverPendingTaskGroups host config world).2.journal.items runId,
    item.package = package ∧ item.status.isDone = true

/-- The recovery has carried out the package in one of the groups. -/
def CarriedOutIn (groups : List TaskGroup) (package : Package) : Prop :=
  ∃ earlier group before,
    Visits config.stopOnFirstFailure (executeTaskGroup host config runId) groups
      (recoverPendingTaskGroups host config world).2 earlier group before ∧
    package ∈ group.packages ∧
    CarriedOut host group package before (executeTaskGroup host config runId group before).2

/-- What makes sure that an item is dealt with before another one that is pending:
it is done, both stand in one stretch of the recovery that becomes one group, or it
stands ahead and a failure stops the recovery. -/
inductive OrderedBefore (dependency item : JournalItem) : Prop where
  | done (finished : dependency.status.isDone = true)
  | together (front block back : List JournalItem)
      (order : recoveryOrder host world.plugins (pendingItems world.journal runId) =
        front ++ block ++ back)
      (first : dependency ∈ block) (second : item ∈ block)
      (uniform : ∀ other ∈ block, other.package.action = item.package.action ∧
        other.package.system = item.package.system)
  | ahead (stops : config.stopOnFirstFailure = true)
      (executed : softSkipsNix host config (TaskGroup.openFor dependency.package) = false)
      (order : [dependency, item].Sublist
        (recoveryOrder host world.plugins (pendingItems world.journal runId)))

/-- The order of the recovery keeps every edge between items of the run. -/
def OrderSafe (graph : Graph) : Prop :=
  ∀ edge ∈ graph.edges, ∀ item ∈ pendingItems world.journal runId,
    samePackage item.package (graph.package edge.2) = true →
    ∀ dependency ∈ world.journal.items runId,
      samePackage dependency.package (graph.package edge.1) = true →
      OrderedBefore host config runId world dependency item

end Statement

section History

variable {σ : Type} (runId : String) (world : World σ)

/-- The package was done when the run was interrupted, or one of the calls since then
reconciled it or carried it out. -/
inductive Provided (calls : List (ExecuteCall σ)) (package : Package) : Prop where
  | already (item : JournalItem) (member : item ∈ world.journal.items runId)
      (same : item.package = package) (finished : item.status.isDone = true)
  | reconciled (earlier : List (ExecuteCall σ)) (call : ExecuteCall σ) (later : List (ExecuteCall σ))
      (split : calls = earlier ++ call :: later)
      (there : ReconciledIn call.host call.config runId
        (call.entered (recoveredAfter earlier world)) package)
  | carriedOut (earlier : List (ExecuteCall σ)) (call : ExecuteCall σ) (later : List (ExecuteCall σ))
      (split : calls = earlier ++ call :: later)
      (dispatched : CarriedOutIn call.host call.config runId
        (call.entered (recoveredAfter earlier world))
        (recoverPendingTaskGroups call.host call.config
          (call.entered (recoveredAfter earlier world))).1 package)

/-- Whenever the recovery of the call hands a group to a plugin, the dependencies that
belong to the run are in the same call or were provided before. -/
def DependenciesFirst (graph : Graph) (earlier : List (ExecuteCall σ)) (call : ExecuteCall σ) : Prop :=
  ∀ entry ∈ (call.recovered (recoveredAfter earlier world)).calls.drop
      (recoveredAfter earlier world).calls.length,
    ∃ prior group before,
      Recovers call.host call.config runId (call.entered (recoveredAfter earlier world)) prior group before ∧
      CallFor group entry.1 ∧
      ∀ edge ∈ graph.edges, ∀ package ∈ group.packages,
        samePackage package (graph.package edge.2) = true →
        ∀ dependency ∈ (world.journal.items runId).map (·.package),
          samePackage dependency (graph.package edge.1) = true →
          dependency ∈ group.packages ∨ Provided runId world earlier dependency ∨
            ReconciledIn call.host call.config runId (call.entered (recoveredAfter earlier world))
              dependency ∨
            CarriedOutIn call.host call.config runId (call.entered (recoveredAfter earlier world))
              prior dependency

end History

section Pass

variable {σ : Type} {host : Host σ} {config : ExecutionConfig} {runId : String} {world : World σ}
  {flags : List String} {kept done : List JournalItem} {plugins : σ}

theorem executeTaskGroup_noNewDone (group : TaskGroup) (before : World σ) :
    NoNewDone runId before.journal (executeTaskGroup host config runId group before).2.journal := by
  have frame : ExecutionFrame host config runId group before _ := executeTaskGroup_frame group before
  rcases frame.journal with same | marked
  · rw [same]
    exact .refl runId _
  · exact updateItemsStatus_noNewDone marked

/-- An item the plugin did not report missing is written down as done. -/
theorem ResumedPass.reconciledIn (pass : ResumedPass host config runId world flags kept done plugins)
    {item : JournalItem} (member : item ∈ done) :
    ReconciledIn host config runId world item.package := by
  have pending := pass.perm.subset (List.mem_append_right kept member)
  refine ⟨List.mem_map_of_mem pending, pass.reconciled item member, ?_⟩
  refine ⟨Journal.setStatus host.actionCode (done.map (·.package)) .success "" item, ?_,
    Journal.setStatus_package _ _ _ _, ?_⟩
  · rw [pass.recovered]
    simp only [resumedWorld, markRunState_items, withItems_items]
    exact List.mem_map_of_mem (mem_pendingItems.1 pending).1
  · rw [setStatus_status, if_pos (List.mem_map_of_mem (List.mem_map_of_mem member))]
    rfl

/-- While the groups are executed, done are the items that were done or reconciled. -/
theorem ResumedPass.done_executed (pass : ResumedPass host config runId world flags kept done plugins)
    (run : InterruptedRun host.actionCode world.journal runId) {item : JournalItem}
    (member : item ∈ (resumedRun host config runId flags kept done plugins world).2.journal.items runId)
    (finished : item.status.isDone = true) :
    (∃ old ∈ world.journal.items runId, old.package = item.package ∧ old.status.isDone = true) ∨
      ReconciledIn host config runId world item.package := by
  have quiet : NoNewDone runId (resumedWorld host runId done plugins world).journal
      (resumedRun host config runId flags kept done plugins world).2.journal :=
    runInOrder_respects (fun before after : World σ => NoNewDone runId before.journal after.journal)
      (fun _ => .refl runId _) (fun _ _ _ => .trans) executeTaskGroup_noNewDone _ _ _
  obtain ⟨resumed, present, same, doneBefore⟩ := quiet item member finished
  simp only [resumedWorld, markRunState_items, withItems_items, List.mem_map] at present
  obtain ⟨old, known, rfl⟩ := present
  rw [Journal.setStatus_package] at same
  rw [setStatus_status] at doneBefore
  split at doneBefore
  · rename_i listed
    rw [List.map_map, List.mem_map] at listed
    obtain ⟨settled, isDone, sameId⟩ := listed
    have pending := mem_pendingItems.1 (pass.perm.subset (List.mem_append_right kept isDone))
    obtain rfl := run.eq_of_itemId pending.1 known sameId
    rw [← same]
    exact Or.inr (pass.reconciledIn isDone)
  · exact Or.inl ⟨old, known, same, doneBefore⟩

theorem ResumedPass.mem_items (pass : ResumedPass host config runId world flags kept done plugins)
    {group : TaskGroup} (member : group ∈ recoveredGroups flags kept) {package : Package}
    (listed : package ∈ group.packages) :
    ∃ item ∈ kept, item ∈ pendingItems world.journal runId ∧ item.package = package := by
  obtain ⟨item, isKept, same⟩ := List.mem_map.mp (mem_of_mem_recoveredGroups member listed)
  exact ⟨item, isKept, pass.perm.subset (List.mem_append_left done isKept), same⟩

/-- Packages of the groups that share a record are one package. -/
theorem ResumedPass.eq_of_recordKey (pass : ResumedPass host config runId world flags kept done plugins)
    (distinct : DistinctRecordKeys (world.journal.items runId)) {group : TaskGroup}
    (member : group ∈ recoveredGroups flags kept) {first second : Package} (firstListed : first ∈ group.packages)
    (secondListed : second ∈ group.packages)
    (same : makeRecord group runId .success "" first = makeRecord group runId .success "" second) :
    first = second := by
  obtain ⟨firstItem, _, firstPending, rfl⟩ := pass.mem_items member firstListed
  obtain ⟨secondItem, _, secondPending, rfl⟩ := pass.mem_items member secondListed
  have coherent : group.Coherent := recoveredGroups_coherent member
  simp only [makeRecord, TransactionRecord.mk.injEq, true_and, and_true] at same
  have keys : recordKey firstItem.package = recordKey secondItem.package := by
    simp only [recordKey, coherent.action _ firstListed, coherent.action _ secondListed,
      coherent.system _ firstListed, coherent.system _ secondListed, same.1, same.2]
  rw [List.inj_on_of_nodup_map distinct (mem_pendingItems.1 firstPending).1
    (mem_pendingItems.1 secondPending).1 keys]

/-- What is done behind a pass was done before, was reconciled or was carried out. -/
theorem recovered_done (wet : config.dryRun = false)
    (run : InterruptedRun host.actionCode world.journal runId)
    (resolved : ResolvedSystems host (world.journal.items runId))
    (distinct : DistinctRecordKeys (world.journal.items runId))
    (active : (recoverInterruptedRun host config world).journal.activeRun ≠ none) {item : JournalItem}
    (member : item ∈ (recoverInterruptedRun host config world).journal.items runId)
    (finished : item.status.isDone = true) :
    (∃ old ∈ world.journal.items runId, old.package = item.package ∧ old.status.isDone = true) ∨
      ReconciledIn host config runId world item.package ∨
      CarriedOutIn host config runId world (recoverPendingTaskGroups host config world).1 item.package := by
  obtain ⟨flags, kept, done, plugins, pass, change, runItems, reached⟩ :=
    recoverInterruptedRun_outcome run resolved active
  rw [reached.items] at member
  obtain ⟨old, present, rfl⟩ := List.mem_map.mp member
  have samePackage : ((recordChange host.actionCode runItems
      (resumedRun host config runId flags kept done plugins world).1 ∘ change) old).package = old.package :=
    (reached.advances.comp (recordChange_advances host.actionCode reached.final runItems _)).package old
  rw [samePackage]
  rcases recordChange_done finished with before | ⟨record, listed, success, sameId⟩
  · have executed : change old ∈
        (resumedRun host config runId flags kept done plugins world).2.journal.items runId := by
      rw [reached.executed]
      exact List.mem_map_of_mem present
    have earlier := pass.done_executed run executed before
    rw [reached.advances.package] at earlier
    exact earlier.imp_right Or.inl
  · obtain ⟨earlier, group, before, visits, made⟩ := mem_runInOrder_visits listed
    obtain ⟨package, held, rfl, carriedOut⟩ :=
      (executeTaskGroup_execution host config runId group before).carriedOut wet made success
    obtain ⟨item, _, pending, rfl⟩ := pass.mem_items visits.mem held
    have coherent : group.Coherent := recoveredGroups_coherent visits.mem
    -- The record is filed under the item of the package it was made for.
    have filed : itemId host.actionCode (change item).package = itemId host.actionCode
        (packageForRecord runItems (makeRecord group runId .success "" item.package)) := by
      refine itemId_packageForRecord (reached.distinctRecordKeys distinct)
        (reached.perm.mem_iff.2 (List.mem_map_of_mem (mem_pendingItems.1 pending).1))
        (matchesRecord_iff.2 ?_)
      simp [recordKey, makeRecord, reached.advances.package, coherent.action _ held,
        coherent.system _ held]
    rw [← sameId, reached.advances.package, reached.advances.package] at filed
    obtain rfl := run.eq_of_itemId (mem_pendingItems.1 pending).1 present filed
    refine Or.inr (Or.inr ⟨earlier, group, before, ?_, held, carriedOut⟩)
    rw [pass.recovered]
    exact visits

end Pass

section Order

variable {σ : Type} {host : Host σ} {config : ExecutionConfig} {runId : String} {world : World σ}
  {flags : List String} {kept done : List JournalItem} {plugins : σ}

theorem recoveryOrder_nodup (run : InterruptedRun host.actionCode world.journal runId)
    (resolved : ResolvedSystems host (world.journal.items runId)) :
    ((recoveryOrder host world.plugins (pendingItems world.journal runId)).map (·.package)).Nodup := by
  have order := recoveryOrder_perm world.plugins fun item (member : item ∈ pendingItems world.journal runId) =>
    resolved item (mem_pendingItems.1 member).1
  have packages : ((world.journal.items runId).map (·.package)).Nodup := by
    refine List.Nodup.of_map (itemId host.actionCode) ?_
    rw [List.map_map]
    exact run.distinctIds
  have sorted : ((world.journal.getRunItems runId).map (·.package)).Nodup :=
    ((world.journal.getRunItems_perm runId).map _).nodup_iff.mpr packages
  refine (order.map _).nodup_iff.mpr (sorted.sublist ?_)
  exact List.Sublist.map _ List.filter_sublist

/-- The groups of a pass hold every package once. -/
theorem ResumedPass.packages_nodup (pass : ResumedPass host config runId world flags kept done plugins)
    (run : InterruptedRun host.actionCode world.journal runId)
    (resolved : ResolvedSystems host (world.journal.items runId)) :
    ((recoveredGroups flags kept).flatMap (·.packages)).Nodup := by
  rw [recoveredGroups_packages]
  exact (recoveryOrder_nodup run resolved).sublist (pass.sublist.map _)

/-- Items of one uniform stretch that are kept go into one group. -/
theorem recoveredGroups_block (flags : List String) {front block back kept : List JournalItem}
    (nodup : (front ++ block ++ back).Nodup) (sublist : kept.Sublist (front ++ block ++ back))
    {action : ActionType} {system : String}
    (uniform : ∀ item ∈ block, item.package.action = action ∧ item.package.system = system)
    {first second : JournalItem} (firstKept : first ∈ kept) (secondKept : second ∈ kept)
    (firstInside : first ∈ block) (secondInside : second ∈ block) :
    ∃ group ∈ recoveredGroups flags kept, first.package ∈ group.packages ∧ second.package ∈ group.packages := by
  obtain ⟨before, keptBack, rfl, inBefore, inBack⟩ := List.sublist_append_iff.mp sublist
  obtain ⟨keptFront, keptBlock, rfl, inFront, inBlock⟩ := List.sublist_append_iff.mp inBefore
  -- An item of the stretch is kept as an item of the stretch.
  have inside : ∀ item ∈ keptFront ++ keptBlock ++ keptBack, item ∈ block → item ∈ keptBlock := by
    intro item isKept listed
    have apart := List.nodup_append.mp nodup
    rcases List.mem_append.mp isKept with early | late
    · rcases List.mem_append.mp early with early | within
      · exact absurd rfl ((List.nodup_append.mp apart.1).2.2 item (inFront.subset early) item listed)
      · exact within
    · exact absurd rfl (apart.2.2 item (List.mem_append_right _ listed) item (inBack.subset late))
  have firstIn := inside first firstKept firstInside
  obtain ⟨group, grouped, held⟩ := groupAdjacent_block (keptFront.map (·.package))
    (keptBlock.map (·.package)) (keptBack.map (·.package)) action system
    (by simpa using List.ne_nil_of_mem firstIn) (by
      intro package listed
      obtain ⟨item, member, rfl⟩ := List.mem_map.mp listed
      exact uniform item (inBlock.subset member))
  refine ⟨{ group with flags := flags }, ?_, held _ (List.mem_map_of_mem firstIn),
    held _ (List.mem_map_of_mem (inside second secondKept secondInside))⟩
  rw [recoveredGroups, List.map_append, List.map_append]
  exact List.mem_map_of_mem grouped

/-- A kept item that stands ahead of another one is in its group or in an earlier one. -/
theorem ResumedPass.grouped_ahead (pass : ResumedPass host config runId world flags kept done plugins)
    (run : InterruptedRun host.actionCode world.journal runId)
    (resolved : ResolvedSystems host (world.journal.items runId)) {prior later : List TaskGroup}
    {group : TaskGroup} (split : recoveredGroups flags kept = prior ++ group :: later)
    {item dependency : JournalItem} (held : item.package ∈ group.packages) (isKept : dependency ∈ kept)
    (order : [dependency, item].Sublist
      (recoveryOrder host world.plugins (pendingItems world.journal runId))) :
    dependency.package ∈ group.packages ∨ ∃ other ∈ prior, dependency.package ∈ other.packages := by
  have flat := recoveredGroups_packages flags kept
  have listed : dependency.package ∈ (recoveredGroups flags kept).flatMap (·.packages) := by
    rw [flat]
    exact List.mem_map_of_mem isKept
  rw [split, List.flatMap_append, List.flatMap_cons, List.mem_append, List.mem_append] at listed
  rcases listed with early | same | late
  · exact Or.inr (List.mem_flatMap.mp early)
  · exact Or.inl same
  · -- Behind the group it would stand behind the item in the recovery, too.
    have behind : [item.package, dependency.package].Sublist
        ((recoveredGroups flags kept).flatMap (·.packages)) := by
      rw [split, List.flatMap_append, List.flatMap_cons]
      refine List.Sublist.trans ?_ (List.sublist_append_right _ _)
      exact (List.singleton_sublist.mpr held).append (List.singleton_sublist.mpr late)
    rw [flat] at behind
    have ahead := order.map JournalItem.package
    exact absurd ahead
      (not_sublist_swap (recoveryOrder_nodup run resolved) (behind.trans (pass.sublist.map _)))

/-- Where failures stop the recovery, the groups ahead of the one it has come to were
carried out. -/
theorem ResumedPass.carriedOut_ahead (pass : ResumedPass host config runId world flags kept done plugins)
    (distinct : DistinctRecordKeys (world.journal.items runId)) (wet : config.dryRun = false)
    (stops : config.stopOnFirstFailure = true) {prior : List TaskGroup} {group : TaskGroup}
    {before : World σ}
    (visits : Visits config.stopOnFirstFailure (executeTaskGroup host config runId)
      (recoveredGroups flags kept) (resumedWorld host runId done plugins world) prior group before)
    {other : TaskGroup} (early : other ∈ prior) {package : Package} (inside : package ∈ other.packages)
    (executed : softSkipsNix host config (TaskGroup.openFor package) = false) :
    CarriedOutIn host config runId world prior package := by
  have known : other ∈ recoveredGroups flags kept := by
    obtain ⟨later, split⟩ := visits.split
    rw [split]
    exact List.mem_append_left _ early
  have coherent : other.Coherent := recoveredGroups_coherent known
  obtain ⟨front, middle, visited, clean⟩ := visits.ahead early
  have execution := executeTaskGroup_execution host config runId other middle
  have unskipped : softSkipsNix host config other = false := by
    simpa [softSkipsNix, TaskGroup.openFor, coherent.action _ inside, coherent.system _ inside] using executed
  -- The package has a record, and it is no failure because the recovery went on.
  obtain ⟨status, message, made⟩ := execution.covers unskipped inside
  have success : status = .success := by
    have failed := List.any_eq_false.mp (clean stops) _ made
    obtain ⟨_, _, _, _, same, final⟩ := execution.record_of made
    have equal := congrArg TransactionRecord.status same
    cases status with
    | success => rfl
    | failed => simp [makeRecord] at failed
    | skipped => exact absurd equal.symm final
  obtain ⟨recorded, listed, same, carriedOut⟩ := execution.carriedOut wet made success
  obtain rfl : message = "" := congrArg TransactionRecord.errorMessage same
  subst success
  obtain rfl := pass.eq_of_recordKey distinct known inside listed same
  refine ⟨front, other, middle, ?_, inside, carriedOut⟩
  rw [pass.recovered]
  exact visited

/-- When the recovery comes to a group, what stands before one of its items in a safe
order is in the group or dealt with. -/
theorem ResumedPass.provides (pass : ResumedPass host config runId world flags kept done plugins)
    (run : InterruptedRun host.actionCode world.journal runId)
    (resolved : ResolvedSystems host (world.journal.items runId))
    (distinct : DistinctRecordKeys (world.journal.items runId)) (wet : config.dryRun = false)
    {prior : List TaskGroup} {group : TaskGroup} {before : World σ}
    (visits : Visits config.stopOnFirstFailure (executeTaskGroup host config runId)
      (recoveredGroups flags kept) (resumedWorld host runId done plugins world) prior group before)
    {item dependency : JournalItem} (itemKept : item ∈ kept) (held : item.package ∈ group.packages)
    (ordered : OrderedBefore host config runId world dependency item) :
    dependency.package ∈ group.packages ∨ dependency.status.isDone = true ∨
      ReconciledIn host config runId world dependency.package ∨
      CarriedOutIn host config runId world prior dependency.package := by
  have order := pass.perm.trans (recoveryOrder_perm world.plugins
    fun item (member : item ∈ pendingItems world.journal runId) =>
      resolved item (mem_pendingItems.1 member).1).symm
  have nodup := recoveryOrder_nodup run resolved
  cases ordered with
  | done finished => exact Or.inr (Or.inl finished)
  | together front block back whole first second uniform =>
      have listed : dependency ∈ kept ++ done := order.mem_iff.2 (by rw [whole]; simp [first])
      rcases List.mem_append.mp listed with isKept | isDone
      · have sublist := pass.sublist
        rw [whole] at nodup sublist
        obtain ⟨other, member, dependencyHeld, itemHeld⟩ := recoveredGroups_block flags
          (List.Nodup.of_map _ nodup) sublist uniform isKept itemKept first second
        have same := part_unique (pass.packages_nodup run resolved) visits.mem member held itemHeld
        rw [same]
        exact Or.inl dependencyHeld
      · exact Or.inr (Or.inr (Or.inl (pass.reconciledIn isDone)))
  | ahead stops executed ahead =>
      have listed : dependency ∈ kept ++ done := order.mem_iff.2 (ahead.subset (by simp))
      rcases List.mem_append.mp listed with isKept | isDone
      · obtain ⟨later, split⟩ := visits.split
        rcases pass.grouped_ahead run resolved split held isKept ahead with same | ⟨other, early, inside⟩
        · exact Or.inl same
        · exact Or.inr (Or.inr (Or.inr
            (pass.carriedOut_ahead distinct wet stops visits early inside executed)))
      · exact Or.inr (Or.inr (Or.inl (pass.reconciledIn isDone)))

/-- Every call of a pass to a plugin is the call of a group the recovery comes to. -/
theorem ResumedPass.mem_calls (pass : ResumedPass host config runId world flags kept done plugins)
    {entry : PluginCall × Bool}
    (member : entry ∈ (recoverInterruptedRun host config world).calls.drop world.calls.length) :
    ∃ prior group before,
      Visits config.stopOnFirstFailure (executeTaskGroup host config runId) (recoveredGroups flags kept)
        (resumedWorld host runId done plugins world) prior group before ∧ CallFor group entry.1 := by
  have walked : entry ∈ (resumedRun host config runId flags kept done plugins world).2.calls.drop
      (resumedWorld host runId done plugins world).calls.length := by
    rw [pass.finished, finishTransactions_calls] at member
    exact member
  obtain ⟨prior, group, before, visits, made⟩ := mem_runInOrder_log World.calls
    (fun group before => (executeTaskGroup_extends host config runId group before).calls) walked
  have frame : ExecutionFrame host config runId group before _ := executeTaskGroup_frame group before
  obtain ⟨calls, grown, origin⟩ := frame.calls
  rw [grown, List.drop_left] at made
  exact ⟨prior, group, before, visits, (origin entry made).1⟩

end Order

section Runs

variable {σ : Type} {actionCode : ActionType → Nat} {packages : List Package} {runId : String}
  {world : World σ}

theorem Provided.concat {calls : List (ExecuteCall σ)} {package : Package}
    (provided : Provided runId world calls package) (call : ExecuteCall σ) :
    Provided runId world (calls ++ [call]) package := by
  cases provided with
  | already item member same finished => exact .already item member same finished
  | reconciled earlier other later split there =>
      exact .reconciled earlier other (later ++ [call]) (by simp [split]) there
  | carriedOut earlier other later split dispatched =>
      exact .carriedOut earlier other (later ++ [call]) (by simp [split]) dispatched

/-- While the run goes on, what the journal holds as done was provided. -/
theorem recoveredAfter_provided (still : StillInterrupted actionCode packages runId world)
    (calls : List (ExecuteCall σ)) (usable : ∀ call ∈ calls, call.Usable actionCode packages)
    (wet : ∀ call ∈ calls, call.config.dryRun = false) :
    (recoveredAfter calls world).journal.activeRun = none ∨
      (StillInterrupted actionCode packages runId (recoveredAfter calls world) ∧
        ((recoveredAfter calls world).journal.items runId).map (·.package) =
          (world.journal.items runId).map (·.package) ∧
        ∀ item ∈ (recoveredAfter calls world).journal.items runId, item.status.isDone = true →
          Provided runId world calls item.package) := by
  induction calls using List.reverseRecOn with
  | nil => exact Or.inr ⟨still, rfl, fun item member finished => .already item member rfl finished⟩
  | append_singleton calls call ih =>
      rw [recoveredAfter_concat]
      rcases ih (fun other member => usable other (List.mem_append_left _ member))
        (fun other member => wet other (List.mem_append_left _ member)) with
        cleared | ⟨reached, same, provided⟩
      · rw [recovered_of_activeRun_none cleared]
        exact Or.inl cleared
      cases after : (call.recovered (recoveredAfter calls world)).journal.activeRun with
      | none => exact Or.inl rfl
      | some active =>
          have stillActive : (call.recovered (recoveredAfter calls world)).journal.activeRun ≠ none := by
            simp [after]
          obtain ⟨further, unchanged, _⟩ := reached.call (usable call (by simp)) stillActive
          obtain ⟨entered, resolved⟩ := reached.entered (usable call (by simp))
          refine Or.inr ⟨further, unchanged.trans same, fun item member finished => ?_⟩
          rcases recovered_done (wet call (by simp)) entered resolved reached.distinct stillActive member
            finished with ⟨old, present, samePackage, doneBefore⟩ | there | dispatched
          · rw [← samePackage]
            exact (provided old present doneBefore).concat call
          · exact .reconciled calls call [] rfl there
          · exact .carriedOut calls call [] rfl dispatched

end Runs

section Examples

end Examples

end ReqPack.Executor
