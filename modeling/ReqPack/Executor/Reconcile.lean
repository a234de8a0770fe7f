import ReqPack.Data.Lists
import ReqPack.Executor.RunItems

/-! # What reconciliation decides

Each pending item is either kept for execution or written down as done.  The items
that are kept stand in a fixed order: first those no plugin can be asked about,
then the others, one system after the other.
-/

namespace ReqPack.Executor

open ReqPack.Data ReqPack.Core ReqPack.Scheduler

variable {σ : Type} {host : Host σ} {runId : String}

/-- The order in which recovery comes to the pending items. -/
def recoveryOrder (host : Host σ) (plugins : σ) (items : List JournalItem) : List JournalItem :=
  let recoverable := (items.filter (isRecoverable host plugins)).map (resolveItem host)
  (items.filter fun item => !isRecoverable host plugins item) ++
    (checkedSystems recoverable).flatMap fun system =>
      recoverable.filter fun item => item.package.system == system

/-- A plugin that was asked about the package did not report it missing. -/
def NoLongerMissing (host : Host σ) (package : Package) : Prop :=
  ∃ system asked plugins, package ∈ asked ∧
    (host.getMissingPackages system asked plugins).1.any (fun other => samePackage other package) = false

/-- A stage of reconciliation has dealt with `items`: those it kept were put at the
end of the list, the others were not missing and were written down as done. -/
def Reconciles (host : Host σ) (runId : String) (items : List JournalItem)
    (before after : List JournalItem × World σ) : Prop :=
  ∃ kept done plugins, after.1 = before.1 ++ kept ∧ kept.Sublist items ∧ (kept ++ done).Perm items ∧
    (∀ item ∈ done, NoLongerMissing host item.package) ∧
    after.2 = { before.2 with
      plugins := plugins
      journal := before.2.journal.withItems runId
        (Journal.setStatus host.actionCode (done.map (·.package)) .success "") }

section Stages

theorem Reconciles.keepAll (items : List JournalItem) (before : List JournalItem × World σ) (plugins : σ) :
    Reconciles host runId items before (before.1 ++ items, { before.2 with plugins := plugins }) :=
  ⟨items, [], plugins, rfl, List.Sublist.refl _, by simp, by simp, by simp [setStatus_nil, withItems_id]⟩

theorem Reconciles.trans {first second : List JournalItem} {before middle after : List JournalItem × World σ}
    (earlier : Reconciles host runId first before middle)
    (later : Reconciles host runId second middle after) :
    Reconciles host runId (first ++ second) before after := by
  obtain ⟨kept, done, plugins, list, sublist, perm, there, world⟩ := earlier
  obtain ⟨kept', done', plugins', list', sublist', perm', there', world'⟩ := later
  refine ⟨kept ++ kept', done ++ done', plugins', ?_, sublist.append sublist', ?_, ?_, ?_⟩
  · rw [list', list, List.append_assoc]
  · have swap : (kept ++ kept' ++ (done ++ done')).Perm (kept ++ done ++ (kept' ++ done')) := by
      simp only [List.append_assoc]
      exact List.Perm.append_left kept
        (by simpa only [List.append_assoc] using List.perm_append_comm.append_right done')
    exact swap.trans (perm.append perm')
  · exact List.forall_mem_append.mpr ⟨there, there'⟩
  · rw [world', world]
    simp [withItems_withItems, setStatus_append]

theorem Reconciles.asking {items : List JournalItem} {before after : List JournalItem × World σ} (plugins : σ)
    (reconciles : Reconciles host runId items (before.1, { before.2 with plugins := plugins }) after) :
    Reconciles host runId items before after := by
  obtain ⟨kept, done, plugins', list, sublist, perm, there, world⟩ := reconciles
  exact ⟨kept, done, plugins', list, sublist, perm, there, world⟩

theorem reconcileItem_reconciles {missing : List Package} {item : JournalItem}
    (reported : missing.any (fun package => samePackage package item.package) = false →
      NoLongerMissing host item.package) (found : List JournalItem × World σ) :
    Reconciles host runId [item] found (reconcileItem host runId missing found item) := by
  unfold reconcileItem
  split
  · exact .keepAll [item] found found.2.plugins
  · rename_i present
    cases updated : found.2.journal.updateItemsStatus host.actionCode runId [item.package] .success "" with
    | none => exact .keepAll [item] found found.2.plugins
    | some journal =>
        refine ⟨[], [item], found.2.plugins, by simp, by simp, by simp, ?_, ?_⟩
        · simpa using reported (by simpa using present)
        · simp [updateItemsStatus_eq_withItems updated]

theorem foldl_reconciles {α : Type} (itemsOf : α → List JournalItem)
    {stage : List JournalItem × World σ → α → List JournalItem × World σ} {entries : List α}
    (stepwise : ∀ entry ∈ entries, ∀ found,
      Reconciles host runId (itemsOf entry) found (stage found entry))
    (found : List JournalItem × World σ) :
    Reconciles host runId (entries.flatMap itemsOf) found (entries.foldl stage found) := by
  induction entries generalizing found with
  | nil => simpa using Reconciles.keepAll [] found found.2.plugins
  | cons entry entries ih =>
      rw [List.flatMap_cons, List.foldl_cons]
      exact (stepwise entry List.mem_cons_self found).trans
        (ih (fun other member => stepwise other (List.mem_cons_of_mem _ member)) (stage found entry))

theorem reconcileSystem_reconciles (recoverable : List JournalItem) (system : String)
    (found : List JournalItem × World σ) :
    Reconciles host runId (recoverable.filter fun item => item.package.system == system) found
      (reconcileSystem host runId recoverable found system) := by
  simp only [reconcileSystem]
  generalize recoverable.filter (fun item => item.package.system == system) = items
  split
  · refine Reconciles.asking (host.getMissingPackages system (items.map (·.package)) found.2.plugins).2 ?_
    simpa using foldl_reconciles (fun item => [item]) (fun item member =>
      reconcileItem_reconciles fun absent =>
        ⟨system, _, found.2.plugins, List.mem_map_of_mem member, absent⟩) _
  · exact .keepAll items found found.2.plugins

/-- Reconciliation keeps some of the pending items, in recovery order, and settles
the rest. -/
theorem reconcileRecoveredItems_spec (host : Host σ) (runId : String) (items : List JournalItem)
    (world : World σ) :
    ∃ done plugins,
      (reconcileRecoveredItems host runId items world).1.Sublist (recoveryOrder host world.plugins items) ∧
      ((reconcileRecoveredItems host runId items world).1 ++ done).Perm
        (recoveryOrder host world.plugins items) ∧
      (∀ item ∈ done, NoLongerMissing host item.package) ∧
      (reconcileRecoveredItems host runId items world).2 = { world with
        plugins := plugins
        journal := world.journal.withItems runId
          (Journal.setStatus host.actionCode (done.map (·.package)) .success "") } := by
  have reconciled : Reconciles host runId _ _ (reconcileRecoveredItems host runId items world) :=
    foldl_reconciles _ (fun system _ => reconcileSystem_reconciles
      ((items.filter (isRecoverable host world.plugins)).map (resolveItem host)) system)
      (items.filter fun item => !isRecoverable host world.plugins item, world)
  obtain ⟨kept, done, plugins, list, sublist, perm, there, left⟩ := reconciled
  refine ⟨done, plugins, ?_, ?_, there, left⟩
  · rw [list]
    exact (List.Sublist.refl _).append sublist
  · rw [list, List.append_assoc]
    exact List.Perm.append_left _ perm

end Stages

section Order

/-- With resolved system names recovery comes to every pending item, once. -/
theorem recoveryOrder_perm (plugins : σ) {items : List JournalItem}
    (resolved : ∀ item ∈ items, host.resolvePluginName item.package.system = item.package.system) :
    (recoveryOrder host plugins items).Perm items := by
  have same : (items.filter (isRecoverable host plugins)).map (resolveItem host) =
      items.filter (isRecoverable host plugins) := by
    refine (List.map_congr_left fun item member => ?_).trans (List.map_id _)
    simp only [resolveItem, resolved item (List.mem_of_mem_filter member)]
    rfl
  have binned := perm_bins (nodup_firstKeys (fun item : JournalItem => item.package.system)
    (items.filter (isRecoverable host plugins))) fun item member => mem_firstKeys member
  simp only [recoveryOrder, same]
  refine (List.Perm.append_left _ binned).trans ?_
  exact List.perm_append_comm.trans (List.filter_append_perm _ items)

end Order

end ReqPack.Executor
