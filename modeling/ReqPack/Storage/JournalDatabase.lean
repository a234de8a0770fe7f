import Mathlib.Data.List.Sort
import ReqPack.Storage.InstalledDatabase
import ReqPack.Storage.JournalCodec

/-! # The journal on disk

`TransactionDatabase` on the level of keys and payloads.  A call that gives up its
write transaction leaves the database as it was.
-/

namespace ReqPack.Storage

open ReqPack.Data

variable {α : Type} [Alphabet α]

/-- The clock in milliseconds, printed. -/
def nowTimestamp (clock : Int) : List α := text (toString clock)

/-- A new run is named after the time and the number of its packages. -/
def newRunId (clock : Int) (packages : List (StoredPackage α)) : List α :=
  nowTimestamp clock ++ text "-" ++ text (toString packages.length)

namespace Journal

variable (database : Database α)

/-- The check of `createRun`, a read transaction of its own. -/
def refusesRun : Bool :=
  match database.get activeRunKey with
  | none => false
  | some active => !active.isEmpty

def plannedItem (runId : List α) (entry : StoredPackage α × Nat) : TransactionItemRecord α :=
  { runId := runId
    itemId := itemIdForPackage entry.1
    sequence := entry.2
    package := entry.1
    status := text "planned"
    errorMessage := [] }

def putItem (runId : List α) (database : Database α) (item : TransactionItemRecord α) : Database α :=
  database.put (itemKey runId item.package) (serializeItem item)

/-- The write transaction of `createRun`. -/
def writeRun (clock : Int) (packages : List (StoredPackage α)) (flags : List (List α)) : Database α :=
  let runId := newRunId clock packages
  let run : TransactionRunRecord α :=
    { id := runId, state := text "open", createdAt := nowTimestamp clock,
      updatedAt := nowTimestamp clock, flags := flags }
  (packages.zipIdx.map (plannedItem runId)).foldl (putItem runId)
    ((database.put activeRunKey runId).put (runKey runId) (serializeRun run))

/-- `createRun`; the empty id tells that it was refused. -/
def createRun (clock : Int) (packages : List (StoredPackage α)) (flags : List (List α)) :
    List α × Database α :=
  if refusesRun database then ([], database)
  else (newRunId clock packages, writeRun database clock packages flags)

/-- Give one item a new status; `none` when it is missing or cannot be read. -/
def updateItemStatus (runId status errorMessage : List α) (database : Database α)
    (package : StoredPackage α) : Option (Database α) := do
  let payload ← database.get (itemKey runId package)
  let item ← deserializeItem (itemKey runId package) payload
  some (database.put (itemKey runId package)
    (serializeItem { item with status := status, errorMessage := errorMessage }))

/-- Note the time of a change in the run, if it can be read. -/
def touchRun (runId : List α) (clock : Int) : Database α :=
  match database.get (runKey runId) with
  | none => database
  | some payload =>
      match deserializeRun runId payload with
      | none => database
      | some run =>
          database.put (runKey runId) (serializeRun { run with updatedAt := nowTimestamp clock })

/-- `updateItemsStatus`; one missing item gives up the whole transaction. -/
def updateItemsStatus (clock : Int) (runId : List α) (packages : List (StoredPackage α))
    (status errorMessage : List α) : Database α :=
  match packages.foldlM (updateItemStatus runId status errorMessage) database with
  | none => database
  | some updated => touchRun updated runId clock

def markRunState (clock : Int) (runId state : List α) : Database α :=
  match database.get (runKey runId) with
  | none => database
  | some payload =>
      match deserializeRun runId payload with
      | none => database
      | some run =>
          database.put (runKey runId)
            (serializeRun { run with state := state, updatedAt := nowTimestamp clock })

def getRunItems (runId : List α) : List (TransactionItemRecord α) :=
  ((database.scan (itemPrefix runId)).filterMap fun entry => deserializeItem entry.1 entry.2).insertionSort
    fun left right => left.sequence ≤ right.sequence

/-- The active-run key goes when it names the run. -/
def clearActive (runId : List α) : Database α :=
  if database.get activeRunKey = some runId then database.erase activeRunKey else database

/-- The record of a committed run; one that cannot be read starts over. -/
def committedRun (clock : Int) (runId : List α) : TransactionRunRecord α :=
  match (database.get (runKey runId)).bind (deserializeRun runId) with
  | none =>
      { id := runId, state := text "committed", createdAt := nowTimestamp clock,
        updatedAt := nowTimestamp clock }
  | some run => { run with state := text "committed", updatedAt := nowTimestamp clock }

/-- `markRunCommitted`; an unknown run gets a record. -/
def markRunCommitted (clock : Int) (runId : List α) : Database α :=
  let items := (getRunItems database runId).map fun item =>
    { item with status := text "committed", errorMessage := [] }
  let committed := items.foldl (putItem runId) database
  clearActive (committed.put (runKey runId) (serializeRun (committedRun committed clock runId))) runId

/-- `deleteRun`; a run without a record gives up the transaction. -/
def deleteRun (runId : List α) : Database α :=
  if (database.get (runKey runId)).isSome then
    clearActive ((database.eraseKeys (database.keysFrom (itemPrefix runId))).erase (runKey runId)) runId
  else database

def getActiveRun : Option (TransactionRunRecord α) :=
  match database.get activeRunKey with
  | none => none
  | some active =>
      if active.isEmpty then none else (database.get (runKey active)).bind (deserializeRun active)

end Journal

/-- A call of the journal; `clock` is the time it reads. -/
inductive JournalCall (α : Type) where
  | createRun (clock : Int) (packages : List (StoredPackage α)) (flags : List (List α))
  | updateItemsStatus (clock : Int) (runId : List α) (packages : List (StoredPackage α))
      (status errorMessage : List α)
  | markRunState (clock : Int) (runId state : List α)
  | markRunCommitted (clock : Int) (runId : List α)
  | deleteRun (runId : List α)

def JournalCall.apply (database : Database α) : JournalCall α → Database α
  | .createRun clock packages flags => (Journal.createRun database clock packages flags).2
  | .updateItemsStatus clock runId packages status errorMessage =>
      Journal.updateItemsStatus database clock runId packages status errorMessage
  | .markRunState clock runId state => Journal.markRunState database clock runId state
  | .markRunCommitted clock runId => Journal.markRunCommitted database clock runId
  | .deleteRun runId => Journal.deleteRun database runId

/-- The journal after a sequence of calls, starting empty. -/
def runJournal (calls : List (JournalCall α)) : Database α := calls.foldl JournalCall.apply KeyValue.empty

end ReqPack.Storage
