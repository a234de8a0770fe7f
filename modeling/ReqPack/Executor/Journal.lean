import Mathlib.Logic.Function.Basic
import ReqPack.Data.Ordering
import ReqPack.Core.Package

/-! # The transaction journal

`TransactionDatabase`: the active-run key, the run records and the items of each
run.  An item is filed under the hash of its package, and what a stored package
loses on the way to disk (its flags and the direct-request mark) is lost here too.
-/

namespace ReqPack.Executor

open ReqPack.Data ReqPack.Core

inductive ItemStatus where
  | planned
  | running
  | success
  | failed
  | skipped
  | committed
deriving Repr, DecidableEq

inductive RunState where
  | opened
  | recovered
  | failed
  | committed
deriving Repr, DecidableEq

structure RunRecord where
  state : RunState
  flags : List String := []
deriving Repr, DecidableEq

structure JournalItem where
  sequence : Nat
  package : Package
  status : ItemStatus
  errorMessage : String := ""
deriving Repr, DecidableEq

structure Journal where
  /-- the value under `meta:active_run` -/
  activeRun : Option String := none
  runs : String → Option RunRecord := fun _ => none
  items : String → List JournalItem := fun _ => []

section Keys

def utf8Bytes (text : String) : List UInt8 := text.toList.flatMap String.utf8EncodeChar

def fnv1aHash (bytes : List UInt8) : UInt64 :=
  bytes.foldl (fun hash byte => (hash ^^^ byte.toUInt64) * 1099511628211) 14695981039346656037

variable (actionCode : ActionType → Nat)

def packageToken (package : Package) : String :=
  toString (actionCode package.action) ++ "|" ++ package.system ++ "|" ++ package.name ++ "|" ++
    package.version ++ "|" ++ package.sourcePath ++ "|" ++ (if package.localTarget then "1" else "0")

/-- `transaction_database_item_id_for_package`, the hash printed in base sixteen. -/
def itemId (package : Package) : String :=
  String.ofList (Nat.toDigits 16 (fnv1aHash (utf8Bytes (packageToken actionCode package))).toNat)

theorem itemId_congr {left right : Package} (same : samePackage left right = true) :
    itemId actionCode left = itemId actionCode right := by
  rw [samePackage_eq_plannerSamePackage, plannerSamePackage_iff] at same
  obtain ⟨action, system, name, version, target, path⟩ := same
  simp only [itemId, packageToken, action, system, name, version, target, path]

end Keys

/-- The package as it is read back from the journal. -/
def storedPackage (package : Package) : Package :=
  { package with flags := [], directRequest := false }

/-- Run flags are joined by semicolons on disk, so a flag that holds one is cut. -/
def storedFlags (flags : List String) : List String :=
  ((flags.flatMap fun flag => flag.toList.splitOn ';').filter fun part => !part.isEmpty).map
    String.ofList

namespace Journal

variable (actionCode : ActionType → Nat) (journal : Journal)

def getActiveRun : Option (String × RunRecord) :=
  match journal.activeRun with
  | none => none
  | some runId => if runId.isEmpty then none else (journal.runs runId).map fun run => (runId, run)

def getRunItems (runId : String) : List JournalItem :=
  stableSort (fun left right => decide (left.sequence < right.sequence)) (journal.items runId)

/-- Writing an item replaces whatever stands under its key. -/
def putItem (items : List JournalItem) (item : JournalItem) : List JournalItem :=
  (items.filter fun other => itemId actionCode other.package != itemId actionCode item.package) ++ [item]

def plannedItem (entry : Package × Nat) : JournalItem :=
  { sequence := entry.2, package := storedPackage entry.1, status := .planned }

/-- `createRun`; an active run makes it return the empty id. -/
def createRun (timestamp : String) (packages : List Package) (flags : List String) :
    Option (String × Journal) :=
  if (journal.activeRun.getD "").isEmpty then
    let runId := timestamp ++ "-" ++ toString packages.length
    some (runId,
      { activeRun := some runId
        runs := Function.update journal.runs runId
          (some { state := .opened, flags := storedFlags flags })
        items := Function.update journal.items runId
          ((packages.zipIdx.map plannedItem).foldl (putItem actionCode) (journal.items runId)) })
  else none

def hasItem (runId : String) (package : Package) : Bool :=
  (journal.items runId).any fun item => itemId actionCode item.package == itemId actionCode package

def setStatus (packages : List Package) (status : ItemStatus) (errorMessage : String)
    (item : JournalItem) : JournalItem :=
  if packages.any fun package => itemId actionCode item.package == itemId actionCode package then
    { item with status := status, errorMessage := errorMessage }
  else item

/-- `updateItemsStatus`: one database transaction, given up when an item is missing. -/
def updateItemsStatus (runId : String) (packages : List Package) (status : ItemStatus)
    (errorMessage : String) : Option Journal :=
  if packages.all (journal.hasItem actionCode runId) then
    some { journal with
      items := Function.update journal.items runId
        ((journal.items runId).map (setStatus actionCode packages status errorMessage)) }
  else none

/-- `updateItemStatus` where the caller ignores the result. -/
def updateItemStatus (runId : String) (package : Package) (status : ItemStatus)
    (errorMessage : String) : Journal :=
  (journal.updateItemsStatus actionCode runId [package] status errorMessage).getD journal

def markRunState (runId : String) (state : RunState) : Journal :=
  match journal.runs runId with
  | none => journal
  | some run => { journal with runs := Function.update journal.runs runId (some { run with state := state }) }

def commitItem (item : JournalItem) : JournalItem :=
  { item with status := .committed, errorMessage := "" }

/-- The active-run key goes when it names the run. -/
def clearActive (runId : String) : Option String :=
  if journal.activeRun = some runId then none else journal.activeRun

def markRunCommitted (runId : String) : Journal :=
  { activeRun := journal.clearActive runId
    runs := Function.update journal.runs runId
      (some { (journal.runs runId).getD { state := .committed } with state := .committed })
    items := Function.update journal.items runId ((journal.items runId).map commitItem) }

/-- `deleteRun`; a run without a record makes the database transaction fail. -/
def deleteRun (runId : String) : Journal :=
  match journal.runs runId with
  | none => journal
  | some _ =>
      { activeRun := journal.clearActive runId
        runs := Function.update journal.runs runId none
        items := Function.update journal.items runId [] }

end Journal

/-- An item that recovery leaves alone. -/
def ItemStatus.settled (status : ItemStatus) : Bool :=
  status == .success || status == .committed || status == .failed

def ItemStatus.isDone (status : ItemStatus) : Bool := status == .success || status == .committed

/-- The number of items a run still has to deal with. -/
def pendingCount (items : List JournalItem) : Nat :=
  items.countP fun item => !item.status.settled

section Lookup

variable {actionCode : ActionType → Nat} {journal : Journal} {runId : String}

theorem Journal.getActiveRun_eq_some {run : RunRecord} :
    journal.getActiveRun = some (runId, run) ↔
      journal.activeRun = some runId ∧ runId ≠ "" ∧ journal.runs runId = some run := by
  unfold Journal.getActiveRun
  cases journal.activeRun with
  | none => simp
  | some active =>
      simp only [Option.ite_none_left_eq_some, Option.map_eq_some_iff, Prod.mk.injEq,
        String.isEmpty_iff, Option.some.injEq]
      constructor
      · intro found
        obtain ⟨named, stored, known, rfl, rfl⟩ := found
        exact ⟨rfl, named, known⟩
      · intro found
        obtain ⟨rfl, named, known⟩ := found
        exact ⟨named, run, known, rfl, rfl⟩

theorem Journal.getRunItems_perm (journal : Journal) (runId : String) :
    (journal.getRunItems runId).Perm (journal.items runId) :=
  stableSort_perm _ _

theorem Journal.mem_getRunItems {item : JournalItem} :
    item ∈ journal.getRunItems runId ↔ item ∈ journal.items runId :=
  (journal.getRunItems_perm runId).mem_iff

@[simp] theorem Journal.setStatus_package (packages : List Package) (status : ItemStatus)
    (errorMessage : String) (item : JournalItem) :
    (Journal.setStatus actionCode packages status errorMessage item).package = item.package := by
  unfold Journal.setStatus
  split <;> rfl

end Lookup

end ReqPack.Executor
