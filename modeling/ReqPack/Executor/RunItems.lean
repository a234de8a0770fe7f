import ReqPack.Executor.Recovery

/-! # How the items of a run change

Between two calls of `createRun` the items of a run keep their packages and their
order; only statuses are written.  `Advanced` says so, and that an item which is
dealt with stays dealt with.
-/

namespace ReqPack.Executor

open ReqPack.Data ReqPack.Core ReqPack.Scheduler

/-- The journal with the items of one run rewritten. -/
def Journal.withItems (journal : Journal) (runId : String) (change : JournalItem → JournalItem) : Journal :=
  { journal with items := Function.update journal.items runId ((journal.items runId).map change) }

/-- A change that writes statuses and never reopens an item of the list. -/
structure Advances (items : List JournalItem) (change : JournalItem → JournalItem) : Prop where
  sequence : ∀ item, (change item).sequence = item.sequence
  package : ∀ item, (change item).package = item.package
  settled : ∀ item ∈ items, item.status.settled = true → (change item).status.settled = true

/-- Only the items of the run changed, and none of them was reopened. -/
def Advanced (runId : String) (before after : Journal) : Prop :=
  ∃ change, Advances (before.items runId) change ∧ after = before.withItems runId change

section Changes

variable {journal : Journal} {runId : String} {items : List JournalItem}
  {change next : JournalItem → JournalItem}

@[simp] theorem withItems_items :
    (journal.withItems runId change).items runId = (journal.items runId).map change := by
  simp [Journal.withItems]

@[simp] theorem withItems_activeRun : (journal.withItems runId change).activeRun = journal.activeRun := rfl

@[simp] theorem withItems_runs : (journal.withItems runId change).runs = journal.runs := rfl

theorem withItems_withItems :
    (journal.withItems runId change).withItems runId next = journal.withItems runId (next ∘ change) := by
  simp [Journal.withItems]

theorem withItems_id : journal.withItems runId id = journal := by
  simp [Journal.withItems]

theorem Advances.comp (first : Advances items change) (second : Advances (items.map change) next) :
    Advances items (next ∘ change) where
  sequence item := (second.sequence _).trans (first.sequence item)
  package item := (second.package _).trans (first.package item)
  settled item member done :=
    second.settled _ (List.mem_map_of_mem member) (first.settled item member done)

theorem Advances.map_package (advances : Advances items change) :
    (items.map change).map (·.package) = items.map (·.package) := by
  simp [Function.comp_def, advances.package]

theorem Advanced.refl (runId : String) (journal : Journal) : Advanced runId journal journal :=
  ⟨id, ⟨fun _ => rfl, fun _ => rfl, fun _ _ done => done⟩, withItems_id.symm⟩

theorem Advanced.trans {first second third : Journal} (earlier : Advanced runId first second)
    (later : Advanced runId second third) : Advanced runId first third := by
  obtain ⟨change, advances, rfl⟩ := earlier
  obtain ⟨next, advances', rfl⟩ := later
  rw [withItems_items] at advances'
  exact ⟨next ∘ change, advances.comp advances', withItems_withItems⟩

theorem Advanced.packages {before after : Journal} (advanced : Advanced runId before after) :
    (after.items runId).map (·.package) = (before.items runId).map (·.package) := by
  obtain ⟨change, advances, rfl⟩ := advanced
  rw [withItems_items]
  exact advances.map_package

theorem Advanced.activeRun {before after : Journal} (advanced : Advanced runId before after) :
    after.activeRun = before.activeRun := by
  obtain ⟨_, _, rfl⟩ := advanced
  rfl

theorem Advanced.runs {before after : Journal} (advanced : Advanced runId before after) :
    after.runs = before.runs := by
  obtain ⟨_, _, rfl⟩ := advanced
  rfl

/-- The order of the items does not depend on their statuses. -/
theorem getRunItems_withItems (sequence : ∀ item, (change item).sequence = item.sequence) :
    (journal.withItems runId change).getRunItems runId = (journal.getRunItems runId).map change := by
  rw [Journal.getRunItems, withItems_items, stableSort_map]
  · rfl
  · intro left right
    simp [sequence]

theorem pendingCount_map_lt (advances : Advances items change) {item : JournalItem}
    (member : item ∈ items) (pending : item.status.settled = false)
    (done : (change item).status.settled = true) :
    pendingCount (items.map change) < pendingCount items := by
  obtain ⟨front, back, rfl⟩ := List.append_of_mem member
  have shrinks : ∀ part : List JournalItem, (∀ item ∈ part, item.status.settled = true →
      (change item).status.settled = true) → pendingCount (part.map change) ≤ pendingCount part := by
    intro part kept
    rw [pendingCount, pendingCount, List.countP_map]
    refine List.countP_mono_left fun item listed open_ => ?_
    simp only [Function.comp_apply, Bool.not_eq_true'] at open_ ⊢
    cases settled : item.status.settled with
    | false => rfl
    | true => simp [kept item listed settled] at open_
  have first := shrinks front fun item listed => advances.settled item (by simp [listed])
  have second := shrinks back fun item listed => advances.settled item (by simp [listed])
  simp only [pendingCount, List.map_append, List.map_cons, List.countP_append, List.countP_cons] at first second ⊢
  simp only [pending, done, Bool.not_true, Bool.not_false, Bool.false_eq_true, if_true, if_false]
  omega

end Changes

/-- Whatever is done in the run was done before. -/
def NoNewDone (runId : String) (before after : Journal) : Prop :=
  ∀ item ∈ after.items runId, item.status.isDone = true →
    ∃ old ∈ before.items runId, old.package = item.package ∧ old.status.isDone = true

theorem NoNewDone.refl (runId : String) (journal : Journal) : NoNewDone runId journal journal :=
  fun item member done => ⟨item, member, rfl, done⟩

theorem NoNewDone.trans {runId : String} {first second third : Journal}
    (earlier : NoNewDone runId first second) (later : NoNewDone runId second third) :
    NoNewDone runId first third := by
  intro item member done
  obtain ⟨middle, between, samePackage, doneBetween⟩ := later item member done
  obtain ⟨old, present, same, doneBefore⟩ := earlier middle between doneBetween
  exact ⟨old, present, same.trans samePackage, doneBefore⟩

section Statuses

variable {actionCode : ActionType → Nat} {journal : Journal} {runId : String}

@[simp] theorem setStatus_sequence (packages : List Package) (status : ItemStatus) (errorMessage : String)
    (item : JournalItem) :
    (Journal.setStatus actionCode packages status errorMessage item).sequence = item.sequence := by
  unfold Journal.setStatus
  split <;> rfl

/-- Whether a status is written depends on the key of the item alone. -/
theorem setStatus_status (packages : List Package) (status : ItemStatus) (errorMessage : String)
    (item : JournalItem) :
    (Journal.setStatus actionCode packages status errorMessage item).status =
      if itemId actionCode item.package ∈ packages.map (itemId actionCode) then status
      else item.status := by
  have listed : (packages.any fun package => itemId actionCode item.package == itemId actionCode package) =
      decide (itemId actionCode item.package ∈ packages.map (itemId actionCode)) := by
    rw [Bool.eq_iff_iff, List.any_eq_true, decide_eq_true_eq, List.mem_map]
    constructor
    · intro found
      obtain ⟨package, member, same⟩ := found
      exact ⟨package, member, (beq_iff_eq.mp same).symm⟩
    · intro found
      obtain ⟨package, member, same⟩ := found
      exact ⟨package, member, beq_iff_eq.mpr same.symm⟩
  simp only [Journal.setStatus, listed, decide_eq_true_eq]
  split <;> rfl

theorem setStatus_nil (status : ItemStatus) (errorMessage : String) :
    Journal.setStatus actionCode [] status errorMessage = id := by
  funext item
  simp [Journal.setStatus]

theorem setStatus_append (first second : List Package) (status : ItemStatus) (errorMessage : String) :
    Journal.setStatus actionCode (first ++ second) status errorMessage =
      Journal.setStatus actionCode second status errorMessage ∘
        Journal.setStatus actionCode first status errorMessage := by
  funext item
  simp only [Function.comp_apply]
  cases listed : first.any fun package => itemId actionCode item.package == itemId actionCode package with
  | true => simp only [Journal.setStatus, List.any_append, listed, Bool.true_or, if_true, ite_self]
  | false => simp only [Journal.setStatus, List.any_append, listed, Bool.false_or, Bool.false_eq_true, if_false]

theorem setStatus_advances (actionCode : ActionType → Nat) (items : List JournalItem) (packages : List Package) {status : ItemStatus}
    (errorMessage : String) (final : status.settled = true) :
    Advances items (Journal.setStatus actionCode packages status errorMessage) where
  sequence item := setStatus_sequence packages status errorMessage item
  package item := Journal.setStatus_package packages status errorMessage item
  settled item _ done := by
    rw [setStatus_status]
    split
    · exact final
    · exact done

theorem updateItemsStatus_eq_withItems {packages : List Package} {status : ItemStatus}
    {errorMessage : String} {written : Journal}
    (updated : journal.updateItemsStatus actionCode runId packages status errorMessage = some written) :
    written = journal.withItems runId (Journal.setStatus actionCode packages status errorMessage) := by
  simp only [Journal.updateItemsStatus, Option.ite_none_right_eq_some, Option.some.injEq] at updated
  exact updated.2.symm

/-- Marking items as running makes none of them done. -/
theorem updateItemsStatus_noNewDone {packages : List Package} {errorMessage : String} {written : Journal}
    (updated : journal.updateItemsStatus actionCode runId packages .running errorMessage = some written) :
    NoNewDone runId journal written := by
  intro item member done
  rw [updateItemsStatus_eq_withItems updated, withItems_items] at member
  obtain ⟨old, present, rfl⟩ := List.mem_map.mp member
  refine ⟨old, present, (Journal.setStatus_package _ _ _ _).symm, ?_⟩
  rw [setStatus_status] at done
  split at done
  · simp [ItemStatus.isDone] at done
  · exact done

/-- An update of an item that is not there changes nothing either way. -/
theorem updateItemStatus_eq_withItems (package : Package) (status : ItemStatus) (errorMessage : String) :
    journal.updateItemStatus actionCode runId package status errorMessage =
      journal.withItems runId (Journal.setStatus actionCode [package] status errorMessage) := by
  simp only [Journal.updateItemStatus, Journal.updateItemsStatus, List.all_cons, List.all_nil,
    Bool.and_true]
  cases known : journal.hasItem actionCode runId package with
  | true => rfl
  | false =>
      have unchanged : (journal.items runId).map
          (Journal.setStatus actionCode [package] status errorMessage) = journal.items runId := by
        rw [Journal.hasItem, List.any_eq_false] at known
        refine (List.map_congr_left fun item member => ?_).trans (List.map_id _)
        have other := known item member
        simp only [Journal.setStatus, List.any_cons, List.any_nil, Bool.or_false]
        simp only [other, if_false, Bool.false_eq_true]
        rfl
      simp [Journal.withItems, unchanged]

end Statuses

section Results

variable {actionCode : ActionType → Nat} {journal : Journal} {runId : String}

/-- What writing records does to an item. -/
def recordChange (actionCode : ActionType → Nat) (runItems : List JournalItem)
    (records : List TransactionRecord) (item : JournalItem) : JournalItem :=
  records.foldl (fun item record => Journal.setStatus actionCode [packageForRecord runItems record]
    (recordItemStatus record.status) record.errorMessage item) item

theorem writeTransactionResults_eq_withItems (named : runId ≠ "") (records : List TransactionRecord) :
    writeTransactionResults actionCode runId records journal =
      journal.withItems runId (recordChange actionCode (journal.getRunItems runId) records) := by
  have open_ : runId.isEmpty = false := by simpa using named
  simp only [writeTransactionResults, open_, Bool.false_eq_true, if_false]
  generalize journal.getRunItems runId = runItems
  induction records generalizing journal with
  | nil => exact withItems_id.symm
  | cons record records ih =>
      rw [List.foldl_cons, updateItemStatus_eq_withItems, ih, withItems_withItems]
      rfl

/-- What counts as done once records were written was done before or has a success
record of its own. -/
theorem recordChange_done {runItems : List JournalItem} {records : List TransactionRecord}
    {item : JournalItem} (done : (recordChange actionCode runItems records item).status.isDone = true) :
    item.status.isDone = true ∨ ∃ record ∈ records, record.status = .success ∧
      itemId actionCode item.package = itemId actionCode (packageForRecord runItems record) := by
  induction records generalizing item with
  | nil => exact Or.inl done
  | cons record records ih =>
      rcases ih done with before | ⟨later, member, success, same⟩
      · rw [setStatus_status] at before
        split at before
        · rename_i found
          refine Or.inr ⟨record, List.mem_cons_self, ?_, by simpa using found⟩
          cases status : record.status <;> simp [status, recordItemStatus, ItemStatus.isDone] at before
          rfl
        · exact Or.inl before
      · rw [Journal.setStatus_package] at same
        exact Or.inr ⟨later, List.mem_cons_of_mem _ member, success, same⟩

/-- The status of a record that was made by executing a group. -/
def Final (records : List TransactionRecord) : Prop := ∀ record ∈ records, record.status ≠ .skipped

theorem recordItemStatus_settled {status : RecordStatus} (final : status ≠ .skipped) :
    (recordItemStatus status).settled = true := by
  cases status with
  | success => rfl
  | failed => rfl
  | skipped => exact absurd rfl final

theorem recordChange_advances (actionCode : ActionType → Nat) {records : List TransactionRecord}
    (final : Final records) (runItems items : List JournalItem) :
    Advances items (recordChange actionCode runItems records) := by
  induction records generalizing items with
  | nil => exact ⟨fun _ => rfl, fun _ => rfl, fun _ _ done => done⟩
  | cons record records ih =>
      have first := setStatus_advances actionCode items [packageForRecord runItems record]
        record.errorMessage (recordItemStatus_settled (final record List.mem_cons_self))
      exact first.comp (ih (fun other member => final other (List.mem_cons_of_mem _ member)) _)

/-- An item is dealt with once a record was written under its key. -/
theorem recordChange_settled {records : List TransactionRecord} (final : Final records)
    (runItems : List JournalItem) {record : TransactionRecord} (member : record ∈ records)
    {item : JournalItem}
    (found : itemId actionCode item.package = itemId actionCode (packageForRecord runItems record)) :
    (recordChange actionCode runItems records item).status.settled = true := by
  obtain ⟨before, after, rfl⟩ := List.append_of_mem member
  have finalAfter : Final after := fun other listed => final other (by simp [listed])
  have finalBefore : Final before := fun other listed => final other (by simp [listed])
  have kept := (recordChange_advances actionCode finalBefore runItems [item]).package item
  simp only [recordChange, List.foldl_append, List.foldl_cons] at kept ⊢
  generalize List.foldl _ item before = reached at kept ⊢
  refine (recordChange_advances actionCode finalAfter runItems [_]).settled _ (List.mem_singleton_self _) ?_
  rw [setStatus_status, kept, found, if_pos (by simp)]
  exact recordItemStatus_settled (final record (by simp))

end Results

end ReqPack.Executor
