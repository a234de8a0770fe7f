import Mathlib.Data.List.Forall2
import ReqPack.Executor.DispatchCases
import ReqPack.Executor.RunItems

/-! # Whose result an item gets

A record carries four of the six fields that tell packages apart.  Its result is filed
under the first item of the run that has these four, which may be the item of another
package: local targets of one name differ in their paths only.
-/

namespace ReqPack.Executor

open ReqPack.Core ReqPack.Scheduler

/-- How the execution of a package ended. -/
structure Outcome where
  status : RecordStatus
  errorMessage : String := ""
deriving Repr, DecidableEq

/-- The record of an executed package. -/
def reportOf (runId : String) (result : Package × Outcome) : TransactionRecord :=
  { runId := runId, system := result.1.system, action := result.1.action, packageName := result.1.name
    packageVersion := result.1.version, status := result.2.status, errorMessage := result.2.errorMessage }

section Records

variable {σ : Type} {host : Host σ} {config : ExecutionConfig} {runId : String} {group : TaskGroup}
  {world after : World σ} {records : List TransactionRecord}

/-- The packages of a group have its action and its system. -/
def Uniform (group : TaskGroup) : Prop :=
  ∀ package ∈ group.packages, package.action = group.action ∧ package.system = group.system

theorem makeRecord_eq_reportOf (uniform : Uniform group) {package : Package} (listed : package ∈ group.packages)
    (status : RecordStatus) (errorMessage : String) :
    makeRecord group runId status errorMessage package = reportOf runId (package, { status, errorMessage }) := by
  obtain ⟨action, system⟩ := uniform package listed
  simp [makeRecord, reportOf, action, system]

/-- Records that name packages of the group are reports on them. -/
theorem map_makeRecord (runId : String) (uniform : Uniform group) {packages : List Package}
    (listed : ∀ package ∈ packages, package ∈ group.packages) (outcome : Package → Outcome) :
    packages.map (fun package =>
        makeRecord group runId (outcome package).status (outcome package).errorMessage package) =
      (packages.map fun package => (package, outcome package)).map (reportOf runId) := by
  rw [List.map_map]
  exact List.map_congr_left fun package member => makeRecord_eq_reportOf uniform (listed package member) _ _

theorem splitByMissing_perm (host : Host σ) (group : TaskGroup) (world : World σ) :
    ((splitByMissing host group world).1.1 ++ (splitByMissing host group world).1.2).Perm group.packages := by
  unfold splitByMissing
  split
  · simpa using List.filter_append_perm (fun package =>
      !(host.getMissingPackages group.system group.packages world.plugins).1.any
        fun other => samePackage other package) group.packages
  · exact List.Perm.refl _

/-- What was executed, package by package, with how it ended. -/
def Reports (runId : String) (group : TaskGroup) (records : List TransactionRecord) : Prop :=
  ∃ results : List (Package × Outcome), records = results.map (reportOf runId) ∧
    (results.map Prod.fst).Perm group.packages

theorem reports_of_all (uniform : Uniform group) (outcome : Outcome) :
    Reports runId group (group.packages.map (makeRecord group runId outcome.status outcome.errorMessage)) :=
  ⟨_, map_makeRecord runId uniform (fun _ listed => listed) fun _ => outcome, by simp [Function.comp_def]⟩

def failureOutcome (unavailable : List String) (package : Package) : Outcome where
  status := .failed
  errorMessage :=
    if unavailable.contains (packageRequestSpec package) then "package unavailable" else "plugin action failed"

/-- The packages of a failed call in the order of their records, with how they ended. -/
def settledResults (host : Host σ) (group : TaskGroup) (world : World σ) : List (Package × Outcome) :=
  let unavailable := takeUnavailable host group world
  let parts := (splitByMissing host group unavailable.2).1
  (parts.1.map fun package => (package, { status := .success })) ++
    parts.2.map fun package => (package, failureOutcome unavailable.1 package)

theorem settledResults_perm (world : World σ) :
    ((settledResults host group world).map Prod.fst).Perm group.packages := by
  have parts := splitByMissing_perm host group (takeUnavailable host group world).2
  simpa [settledResults, Function.comp_def] using parts

theorem settleFailedCall_results (runId : String) (uniform : Uniform group) (world : World σ) :
    (settleFailedCall host group runId world).1 = (settledResults host group world).map (reportOf runId) := by
  have parts := splitByMissing_perm host group (takeUnavailable host group world).2
  have succeeded := map_makeRecord runId uniform
    (fun package member => parts.mem_iff.1 (List.mem_append_left _ member)) fun _ => { status := .success }
  have failed := map_makeRecord runId uniform
    (fun package member => parts.mem_iff.1 (List.mem_append_right _ member))
    (failureOutcome (takeUnavailable host group world).1)
  rw [settledResults, List.map_append, ← succeeded, ← failed]
  rfl

theorem settleFailedCall_reports (uniform : Uniform group)
    (settled : settleFailedCall host group runId world = (records, after)) : Reports runId group records := by
  refine ⟨settledResults host group world, ?_, settledResults_perm world⟩
  rw [← settleFailedCall_results runId uniform, settled]

/-- A group that was executed reports on each of its packages once. -/
theorem GroupExecution.reports (execution : GroupExecution host config runId group world records after)
    (unskipped : softSkipsNix host config group = false) (uniform : Uniform group) :
    Reports runId group records := by
  have success : Reports runId group (buildSuccessRecords group runId) :=
    reports_of_all uniform { status := .success }
  have failure : ∀ message, Reports runId group (buildFailureRecords group runId message) :=
    fun message => reports_of_all uniform { status := .failed, errorMessage := message }
  cases execution with
  | nothing reason =>
      rcases reason with empty | skipped
      · exact ⟨[], by simp, by simp [empty]⟩
      · simp [unskipped] at skipped
  | refused message system => exact failure message
  | dryRun dry system => exact success
  | gateway ok message plugins system =>
      cases ok with
      | true => exact success
      | false => exact failure message
  | dispatched wet system journal running ok middle _ _ dispatched settled =>
      rcases settled with ⟨_, rfl, _⟩ | ⟨_, rfl, _⟩ | ⟨_, _, asked⟩
      · exact success
      · exact failure _
      · exact settleFailedCall_reports uniform asked

end Records

section Filing

variable (actionCode : ActionType → Nat)

/-- The four fields records and items are compared by. -/
def sameKind (left right : Package) : Bool :=
  left.action == right.action && left.system == right.system && left.name == right.name &&
    left.version == right.version

/-- The key the result of a package is filed under: that of the first item of its kind, or
that of a package without a path when there is none. -/
def resultKey (items : List JournalItem) (package : Package) : String :=
  match items.find? fun item => sameKind item.package package with
  | some item => itemId actionCode item.package
  | none =>
      itemId actionCode
        { action := package.action, system := package.system, name := package.name, version := package.version }

theorem itemId_reportOf (items : List JournalItem) (runId : String) (result : Package × Outcome) :
    itemId actionCode (packageForRecord items (reportOf runId result)) = resultKey actionCode items result.1 := by
  have kinds : (fun item : JournalItem => matchesRecord (reportOf runId result) item.package) =
      fun item => sameKind item.package result.1 := rfl
  rw [packageForRecord, resultKey, kinds]
  cases found : items.find? fun item => sameKind item.package result.1 with
  | none => rfl
  | some item =>
      have same := List.find?_some found
      simp only [sameKind, Bool.and_eq_true, beq_iff_eq] at same
      obtain ⟨⟨⟨action, system⟩, name⟩, version⟩ := same
      simp [reportOf, itemId, packageToken, action, system, name, version]

variable {actionCode} {items : List JournalItem} {runId : String}

/-- The result of the package is filed under the key of the item. -/
abbrev Hits (actionCode : ActionType → Nat) (items : List JournalItem) (item : JournalItem)
    (result : Package × Outcome) : Prop :=
  resultKey actionCode items result.1 = itemId actionCode item.package

def JournalItem.withOutcome (item : JournalItem) (outcome : Outcome) : JournalItem :=
  { item with status := recordItemStatus outcome.status, errorMessage := outcome.errorMessage }

theorem recordChange_cons (result : Package × Outcome) (results : List (Package × Outcome)) (item : JournalItem) :
    recordChange actionCode items ((result :: results).map (reportOf runId)) item =
      recordChange actionCode items (results.map (reportOf runId))
        (if resultKey actionCode items result.1 = itemId actionCode item.package then
          item.withOutcome result.2 else item) := by
  have written : Journal.setStatus actionCode [packageForRecord items (reportOf runId result)]
      (recordItemStatus result.2.status) result.2.errorMessage item =
      if resultKey actionCode items result.1 = itemId actionCode item.package then
        item.withOutcome result.2 else item := by
    simp only [Journal.setStatus, List.any_cons, List.any_nil, Bool.or_false, itemId_reportOf]
    by_cases hit : resultKey actionCode items result.1 = itemId actionCode item.package
    · rw [if_pos (by simp [hit]), if_pos hit]
      rfl
    · rw [if_neg (by simpa using Ne.symm hit), if_neg hit]
  rw [← written]
  rfl

theorem recordChange_missed {results : List (Package × Outcome)} {item : JournalItem}
    (missed : ∀ result ∈ results, ¬ Hits actionCode items item result) :
    recordChange actionCode items (results.map (reportOf runId)) item = item := by
  induction results with
  | nil => rfl
  | cons result results ih =>
      rw [recordChange_cons, if_neg (missed result List.mem_cons_self)]
      exact ih fun later member => missed later (List.mem_cons_of_mem _ member)

/-- The last result that is filed under the key of an item is the one it keeps. -/
theorem recordChange_hit (before : List (Package × Outcome)) {result : Package × Outcome}
    {later : List (Package × Outcome)} {item : JournalItem} (hit : Hits actionCode items item result)
    (last : ∀ other ∈ later, ¬ Hits actionCode items item other) :
    recordChange actionCode items ((before ++ result :: later).map (reportOf runId)) item =
      item.withOutcome result.2 := by
  induction before generalizing item with
  | nil =>
      rw [List.nil_append, recordChange_cons, if_pos hit]
      exact recordChange_missed last
  | cons first before ih =>
      rw [List.cons_append, recordChange_cons]
      split
      · exact ih hit last
      · exact ih hit last

/-- An item keeps what it had, or gets the last result filed under its key. -/
theorem hits_cases (actionCode : ActionType → Nat) (items : List JournalItem) (results : List (Package × Outcome)) (item : JournalItem) :
    (∀ result ∈ results, ¬ Hits actionCode items item result) ∨
      ∃ before result later, results = before ++ result :: later ∧ Hits actionCode items item result ∧
        ∀ other ∈ later, ¬ Hits actionCode items item other := by
  induction results with
  | nil => exact Or.inl fun _ member => nomatch member
  | cons first results ih =>
      rcases ih with missed | ⟨before, result, later, rfl, hit, last⟩
      · by_cases hit : Hits actionCode items item first
        · exact Or.inr ⟨[], first, results, rfl, hit, missed⟩
        · refine Or.inl fun result member => ?_
          rcases List.mem_cons.mp member with rfl | later
          · exact hit
          · exact missed result later
      · exact Or.inr ⟨first :: before, result, later, rfl, hit, last⟩

end Filing

section Results

variable {actionCode : ActionType → Nat} {items : List JournalItem} {runId : String}

/-- What the results say about an item: a single result of its package is its own, and
without one it stays as it was. -/
def OwnResult (results : List (Package × Outcome)) (old new : JournalItem) : Prop :=
  (∀ result, results.filter (fun other => samePackage other.1 old.package) = [result] →
      new = old.withOutcome result.2) ∧
    (results.filter (fun other => samePackage other.1 old.package) = [] → new = old)

/-- A package that is executed once has its result filed under its own item, and where a
result is filed under an item, the package of that item is executed then or later or more
than once. -/
structure Distinguished (actionCode : ActionType → Nat) (items : List JournalItem) (executed : List Package) :
    Prop where
  own : ∀ item ∈ items, ∀ package, executed.filter (samePackage · item.package) = [package] →
    resultKey actionCode items package = itemId actionCode item.package
  foreign : ∀ item ∈ items, ∀ before package later, executed = before ++ package :: later →
    resultKey actionCode items package = itemId actionCode item.package →
      (∃ same ∈ package :: later, samePackage same item.package = true) ∨
        2 ≤ (executed.filter (samePackage · item.package)).length

theorem filter_map_fst (results : List (Package × Outcome)) (item : JournalItem) :
    (results.map Prod.fst).filter (samePackage · item.package) =
      (results.filter fun other => samePackage other.1 item.package).map Prod.fst := by
  rw [List.filter_map]
  rfl

theorem Distinguished.ownResult {results : List (Package × Outcome)}
    (distinguished : Distinguished actionCode items (results.map Prod.fst)) {item : JournalItem}
    (member : item ∈ items) :
    OwnResult results item (recordChange actionCode items (results.map (reportOf runId)) item) := by
  constructor
  · intro result single
    obtain ⟨before, later, rfl, _, same, rest⟩ := List.filter_eq_cons_iff.mp single
    have hit : Hits actionCode items item result :=
      distinguished.own item member result.1 (by rw [filter_map_fst, single]; rfl)
    refine recordChange_hit before hit fun other listed foreign => ?_
    -- a later result under this key would need the package once more
    obtain ⟨front, back, rfl⟩ := List.append_of_mem listed
    have again := distinguished.foreign item member ((before ++ result :: front).map Prod.fst) other.1
      (back.map Prod.fst) (by simp) foreign
    rcases again with ⟨package, found, same⟩ | twice
    · rw [← List.map_cons, List.mem_map] at found
      obtain ⟨found, present, rfl⟩ := found
      rw [List.filter_eq_nil_iff] at rest
      exact rest found (by simp only [List.mem_append]; exact Or.inr present) same
    · rw [filter_map_fst, single] at twice
      simp at twice
  · intro none
    refine recordChange_missed fun other listed foreign => ?_
    obtain ⟨front, back, rfl⟩ := List.append_of_mem listed
    have again := distinguished.foreign item member (front.map Prod.fst) other.1 (back.map Prod.fst)
      (by simp) foreign
    rcases again with ⟨package, found, same⟩ | twice
    · rw [← List.map_cons, List.mem_map] at found
      obtain ⟨found, present, rfl⟩ := found
      rw [List.filter_eq_nil_iff] at none
      exact none found (List.mem_append_right _ present) same
    · rw [filter_map_fst, none] at twice
      simp at twice

/-- Two outcomes, the first of which is news for the item. -/
theorem exists_news (item : JournalItem) :
    ∃ news other : Outcome, item.withOutcome news ≠ item ∧ item.withOutcome news ≠ item.withOutcome other := by
  have apart : ∀ {left right : JournalItem}, left.status ≠ right.status → left ≠ right :=
    fun differs same => differs (congrArg JournalItem.status same)
  by_cases done : item.status = .success
  · exact ⟨{ status := .failed }, { status := .success }, apart (by simp [JournalItem.withOutcome,
      recordItemStatus, done]), apart (by simp [JournalItem.withOutcome, recordItemStatus])⟩
  · exact ⟨{ status := .success }, { status := .failed }, apart (by simp [JournalItem.withOutcome,
      recordItemStatus, Ne.symm done]), apart (by simp [JournalItem.withOutcome, recordItemStatus])⟩

/-- Were every item to get its own result however the packages end, nothing could be filed
under a foreign key. -/
theorem distinguished_of_ownResults {executed : List Package}
    (own : ∀ results : List (Package × Outcome), results.map Prod.fst = executed → ∀ item ∈ items,
      OwnResult results item (recordChange actionCode items (results.map (reportOf runId)) item)) :
    Distinguished actionCode items executed := by
  constructor
  · intro item member package single
    by_contra elsewhere
    obtain ⟨news, other, changed, differs⟩ := exists_news item
    -- the package ends in the one way, all others in the other
    let results := executed.map fun package =>
      (package, if samePackage package item.package = true then news else other)
    have fits : results.map Prod.fst = executed := by simp [results, Function.comp_def]
    have alone : results.filter (fun result => samePackage result.1 item.package) = [(package, news)] := by
      have member : package ∈ executed.filter (samePackage · item.package) := by simp [single]
      have same : samePackage package item.package = true := (List.mem_filter.mp member).2
      simp only [results, List.filter_map, Function.comp_def, single, List.map_cons, List.map_nil, same, if_true]
    have result := (own results fits item member).1 _ alone
    rcases hits_cases actionCode items results item with
      missed | ⟨before, last, later, split, hit, nothing⟩
    · rw [recordChange_missed missed] at result
      exact changed result.symm
    · rw [split, recordChange_hit before hit nothing] at result
      have listed : last ∈ results := by simp [split]
      obtain ⟨found, _, rfl⟩ := List.mem_map.mp listed
      by_cases same : samePackage found item.package = true
      · have found_eq : found = package := by
          have inFilter : (found, news) ∈ results.filter fun result => samePackage result.1 item.package := by
            rw [List.mem_filter]
            exact ⟨by simpa [same] using listed, same⟩
          rw [alone, List.mem_singleton] at inFilter
          exact (Prod.mk.inj inFilter).1
        exact elsewhere (found_eq ▸ hit)
      · simp only [same, if_false, Bool.false_eq_true] at result
        exact differs result.symm
  · intro item member before package later split hit
    by_contra! missing
    obtain ⟨absent, few⟩ := missing
    obtain ⟨news, other, changed, differs⟩ := exists_news item
    let early := before.map fun package => (package, other)
    let late := (package :: later).map fun package => (package, news)
    have fits : (early ++ late).map Prod.fst = executed := by simp [early, late, split, Function.comp_def]
    have written : recordChange actionCode items ((early ++ late).map (reportOf runId)) item =
        item.withOutcome news := by
      rcases hits_cases actionCode items late item with
        missed | ⟨front, last, back, parts, hitLast, nothing⟩
      · exact absurd hit (missed (package, news) (by simp [late]))
      · have listed : last ∈ late := by simp [parts]
        obtain ⟨_, _, rfl⟩ := List.mem_map.mp listed
        rw [parts, ← List.append_assoc]
        exact recordChange_hit (early ++ front) hitLast nothing
    have lateMisses : late.filter (fun result => samePackage result.1 item.package) = [] := by
      rw [List.filter_eq_nil_iff]
      intro result listed
      obtain ⟨found, present, rfl⟩ := List.mem_map.mp listed
      exact absent found present
    have counted : ((early ++ late).filter fun result => samePackage result.1 item.package) =
        (before.filter (samePackage · item.package)).map fun package => (package, other) := by
      rw [List.filter_append, lateMisses, List.append_nil, List.filter_map]
      rfl
    have ended := own (early ++ late) fits item member
    rw [written] at ended
    have fewer : (before.filter (samePackage · item.package)).length < 2 := by
      rw [split, List.filter_append, List.length_append] at few
      omega
    match alone : before.filter (samePackage · item.package) with
    | [] => exact changed (ended.2 (by rw [counted, alone]; rfl))
    | [found] => exact differs (ended.1 (found, other) (by rw [counted, alone]; rfl))
    | _ :: _ :: _ =>
        simp only [alone, List.length_cons] at fewer
        omega

theorem sameKind_of_samePackage {left right : Package} (same : samePackage left right = true) :
    sameKind left right = true := by
  simp only [samePackage, sameKind, Bool.and_eq_true] at same ⊢
  exact same.1.1

theorem sameKind_trans {left middle right : Package} (first : sameKind left middle = true)
    (second : sameKind right middle = true) : sameKind left right = true := by
  simp only [sameKind, Bool.and_eq_true, beq_iff_eq] at first second ⊢
  obtain ⟨⟨⟨action, system⟩, name⟩, version⟩ := first
  obtain ⟨⟨⟨action', system'⟩, name'⟩, version'⟩ := second
  exact ⟨⟨⟨action.trans action'.symm, system.trans system'.symm⟩, name.trans name'.symm⟩,
    version.trans version'.symm⟩

/-- Among items of different kinds every result finds its own. -/
theorem Distinguished.of_kinds {executed : List Package}
    (kinds : ∀ left ∈ items, ∀ right ∈ items, sameKind left.package right.package = true → left = right)
    (keys : ∀ left ∈ items, ∀ right ∈ items,
      itemId actionCode left.package = itemId actionCode right.package → left = right)
    (present : ∀ package ∈ executed, ∃ item ∈ items, samePackage package item.package = true) :
    Distinguished actionCode items executed := by
  have kept : ∀ item ∈ items, ∀ package, samePackage package item.package = true →
      resultKey actionCode items package = itemId actionCode item.package := by
    intro item member package same
    have kind : sameKind item.package package = true := by
      rw [samePackage_eq_plannerSamePackage] at same
      exact sameKind_of_samePackage (samePackage_eq_plannerSamePackage _ _ ▸ plannerSamePackage_symm same)
    cases found : items.find? fun item => sameKind item.package package with
    | none => exact absurd kind (by simpa using List.find?_eq_none.mp found item member)
    | some first =>
        have firstKind := List.find?_some found
        have equal := kinds first (List.mem_of_find?_eq_some found) item member (sameKind_trans firstKind kind)
        rw [resultKey, found, equal]
  constructor
  · intro item member package single
    have listed : package ∈ executed.filter (samePackage · item.package) := by simp [single]
    exact kept item member package (List.mem_filter.mp listed).2
  · intro item member before package later split filed
    obtain ⟨other, listed, same⟩ := present package (by simp [split])
    rw [kept other listed package same] at filed
    obtain rfl := keys other listed item member filed
    exact Or.inl ⟨package, List.mem_cons_self, same⟩

theorem getRunItems_writeTransactionResults (journal : Journal) {runId : String} (named : runId ≠ "")
    (results : List (Package × Outcome)) :
    (writeTransactionResults actionCode runId (results.map (reportOf runId)) journal).getRunItems runId =
      (journal.getRunItems runId).map
        (recordChange actionCode (journal.getRunItems runId) (results.map (reportOf runId))) := by
  rw [writeTransactionResults_eq_withItems named, getRunItems_withItems]
  intro item
  induction results generalizing item with
  | nil => rfl
  | cons result results ih =>
      rw [recordChange_cons, ih]
      split <;> rfl

/-- Every item of the run gets its own result, however the executed packages end, exactly
when their results are filed under keys of their own. -/
theorem item_results_iff (actionCode : ActionType → Nat) (journal : Journal) {runId : String} (named : runId ≠ "")
    (executed : List Package) :
    (∀ results : List (Package × Outcome), results.map Prod.fst = executed →
      List.Forall₂ (OwnResult results) (journal.getRunItems runId)
        ((writeTransactionResults actionCode runId (results.map (reportOf runId)) journal).getRunItems runId)) ↔
      Distinguished actionCode (journal.getRunItems runId) executed := by
  simp only [getRunItems_writeTransactionResults journal named, List.forall₂_map_right_iff, List.forall₂_same]
  constructor
  · exact distinguished_of_ownResults
  · intro distinguished results fits item member
    subst fits
    exact distinguished.ownResult member

def toolInstalls : List Package :=
  [{ action := .install, system := "dnf", name := "tool.rpm", sourcePath := "/a/tool.rpm", localTarget := true },
    { action := .install, system := "dnf", name := "tool.rpm", sourcePath := "/b/tool.rpm", localTarget := true }]

def ordinaryInstalls : List Package :=
  [{ action := .install, system := "dnf", name := "gcc" }, { action := .install, system := "dnf", name := "vim" }]

def numberOf : ActionType → Nat
  | .install => 1
  | .ensure => 2
  | .remove => 3
  | .update => 4
  | _ => 0

def plannedJournal (packages : List Package) : Journal where
  activeRun := some "7"
  items := fun _ => packages.zipIdx.map Journal.plannedItem

theorem item_results_ordinary :
    Distinguished numberOf ((plannedJournal ordinaryInstalls).getRunItems "7") ordinaryInstalls ∧
      ∀ results : List (Package × Outcome), results.map Prod.fst = ordinaryInstalls →
        List.Forall₂ (OwnResult results) ((plannedJournal ordinaryInstalls).getRunItems "7")
          ((writeTransactionResults numberOf "7" (results.map (reportOf "7"))
            (plannedJournal ordinaryInstalls)).getRunItems "7") := by
  have distinguished : Distinguished numberOf ((plannedJournal ordinaryInstalls).getRunItems "7") ordinaryInstalls := by
    refine Distinguished.of_kinds ?_ ?_ ?_
    all_goals decide +kernel
  exact ⟨distinguished,
    (item_results_iff numberOf (plannedJournal ordinaryInstalls) (by decide) ordinaryInstalls).mpr distinguished⟩

/-- Both results of two local targets of one name go to the first of them. -/
theorem second_target_stays_planned :
    ((writeTransactionResults numberOf "7" (toolInstalls.map fun package => reportOf "7" (package, { status := .success }))
      (plannedJournal toolInstalls)).getRunItems "7").map (·.status) = [.success, .planned] ∧
    ¬ ∀ results : List (Package × Outcome), results.map Prod.fst = toolInstalls →
      List.Forall₂ (OwnResult results) ((plannedJournal toolInstalls).getRunItems "7")
        ((writeTransactionResults numberOf "7" (results.map (reportOf "7"))
          (plannedJournal toolInstalls)).getRunItems "7") := by
  refine ⟨by decide +kernel, fun own => ?_⟩
  have all := own (toolInstalls.map fun package => (package, { status := .success })) rfl
  rw [getRunItems_writeTransactionResults _ (by decide), List.forall₂_map_right_iff, List.forall₂_same] at all
  have second := (all { sequence := 1, package := toolInstalls[1], status := .planned } (by decide +kernel)).1
    (toolInstalls[1], { status := .success }) (by decide +kernel)
  revert second
  decide +kernel

end Results

end ReqPack.Executor
