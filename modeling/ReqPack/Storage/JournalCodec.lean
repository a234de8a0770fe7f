import Mathlib.Algebra.Group.Int.Defs
import Mathlib.Algebra.Group.Nat.Defs
import ReqPack.Executor.Journal
import ReqPack.Storage.InstalledCodec

/-! # How runs and items of the journal are stored

`transaction_database_store`: the keys of the three kinds of records, and runs and
items as lines `field=value`, each line ended.
-/

namespace ReqPack.Storage

open ReqPack.Data

variable {α : Type} [Alphabet α]

/-- What the journal keeps of a package; the action is stored as its number. -/
structure StoredPackage (α : Type) where
  action : Int
  system : List α
  name : List α
  version : List α
  sourcePath : List α
  localTarget : Bool
deriving DecidableEq

structure TransactionRunRecord (α : Type) where
  id : List α
  state : List α := []
  createdAt : List α := []
  updatedAt : List α := []
  flags : List (List α) := []
deriving DecidableEq

structure TransactionItemRecord (α : Type) where
  runId : List α
  itemId : List α
  sequence : Nat
  package : StoredPackage α
  status : List α
  errorMessage : List α
deriving DecidableEq

section Keys

def activeRunKey : List α := text "meta:active_run"

def runKey (runId : List α) : List α := text "run:" ++ runId

def itemPrefix (runId : List α) : List α := text "item:" ++ (runId ++ [colon])

def packageToken (package : StoredPackage α) : List α :=
  text (toString package.action) ++ text "|" ++ package.system ++ text "|" ++ package.name ++ text "|" ++
    package.version ++ text "|" ++ package.sourcePath ++ text "|" ++
      (if package.localTarget then text "1" else text "0")

/-- `transaction_database_item_id_for_package`: the hash of the token in base sixteen. -/
def itemIdForPackage (package : StoredPackage α) : List α :=
  (Nat.toDigits 16 (Executor.fnv1aHash ((packageToken package).flatMap Alphabet.octets)).toNat).map
    Alphabet.symbol

def itemKey (runId : List α) (package : StoredPackage α) : List α :=
  itemPrefix runId ++ itemIdForPackage package

/-- `parse_item_key`: the run id ends at the first colon. -/
def parseItemKey (key : List α) : Option (List α × List α) :=
  if (text "item:").isPrefixOf key then
    match cutAt colon (key.drop 5) with
    | none => none
    | some (runId, itemId) => if runId.isEmpty || itemId.isEmpty then none else some (runId, itemId)
  else none

end Keys

section Numbers

def isSpace (letter : α) : Bool :=
  [' ', '\t', '\n', '\x0b', '\x0c', '\r'].any fun space => decide (letter = Alphabet.symbol space)

def digitValue (letter : α) : Option Nat :=
  (List.range 10).find? fun digit => decide (letter = Alphabet.symbol digit.digitChar)

/-- The longest run of digits at the front, as a number. -/
def leadingNumber (value : List α) : Option Nat :=
  match value.map digitValue with
  | some _ :: _ => some ((value.map digitValue).takeWhile (·.isSome) |>.foldl
      (fun number digit => 10 * number + digit.getD 0) 0)
  | _ => none

/-- The sign and the size of the number in front of a text. -/
def signedNumber (value : List α) : Option (Bool × Nat) :=
  match value.dropWhile isSpace with
  | [] => none
  | letter :: rest =>
      if letter = Alphabet.symbol '-' then (leadingNumber rest).map fun number => (true, number)
      else if letter = Alphabet.symbol '+' then (leadingNumber rest).map fun number => (false, number)
      else (leadingNumber (letter :: rest)).map fun number => (false, number)

/-- `std::stoull`; a negative number wraps around. -/
def stoull (value : List α) : Option Nat :=
  match signedNumber value with
  | none => none
  | some (negative, number) =>
      if number < 2 ^ 64 then some (if negative then (2 ^ 64 - number) % 2 ^ 64 else number) else none

/-- `std::stoi`. -/
def stoi (value : List α) : Option Int :=
  match signedNumber value with
  | none => none
  | some (negative, number) =>
      let signed : Int := if negative then -number else number
      if -(2 ^ 31) ≤ signed ∧ signed < 2 ^ 31 then some signed else none

end Numbers

section Runs

def runLines (run : TransactionRunRecord α) : List (List α) :=
  [fieldLine "state" run.state, fieldLine "createdAt" run.createdAt, fieldLine "updatedAt" run.updatedAt,
    text "flags" ++ equalsSign :: [semicolon].intercalate (run.flags.map escape)]

def serializeRun (run : TransactionRunRecord α) : List α :=
  (runLines run).flatMap fun line => line ++ [newlineSymbol]

def readRunLine (run : TransactionRunRecord α) (line : List α) : TransactionRunRecord α :=
  match cutAt equalsSign line with
  | none => run
  | some (field, escaped) =>
      let value := unescape escaped
      if field = text "state" then { run with state := value }
      else if field = text "createdAt" then { run with createdAt := value }
      else if field = text "updatedAt" then { run with updatedAt := value }
      else if field = text "flags" then
        { run with flags := run.flags ++ (pieces semicolon value).filter fun flag => !flag.isEmpty }
      else run

/-- A run without an id, a state or a time cannot be read. -/
def deserializeRun (runId payload : List α) : Option (TransactionRunRecord α) :=
  let run := (pieces newlineSymbol payload).foldl readRunLine { id := runId }
  if run.id.isEmpty || run.state.isEmpty || run.createdAt.isEmpty || run.updatedAt.isEmpty then none
  else some run

end Runs

section Items

def serializeItem (item : TransactionItemRecord α) : List α :=
  [fieldLine "sequence" (text (toString item.sequence)),
    fieldLine "action" (text (toString item.package.action)),
    fieldLine "system" item.package.system, fieldLine "name" item.package.name,
    fieldLine "version" item.package.version, fieldLine "sourcePath" item.package.sourcePath,
    fieldLine "localTarget" (text (if item.package.localTarget then "1" else "0")),
    fieldLine "status" item.status, fieldLine "error" item.errorMessage].flatMap
      fun line => line ++ [newlineSymbol]

/-- The fields of an item found so far. -/
structure ItemDraft (α : Type) where
  sequence : Option Nat := none
  action : Option Int := none
  system : Option (List α) := none
  name : Option (List α) := none
  version : Option (List α) := none
  sourcePath : Option (List α) := none
  localTarget : Option Bool := none
  status : Option (List α) := none
  errorMessage : Option (List α) := none

/-- One line of an item; a number or a flag that cannot be read makes the item unreadable. -/
def readItemLine (draft : ItemDraft α) (line : List α) : Option (ItemDraft α) :=
  match cutAt equalsSign line with
  | none => some draft
  | some (field, escaped) =>
      let value := unescape escaped
      if field = text "sequence" then
        (stoull value).map fun sequence => { draft with sequence := some sequence }
      else if field = text "action" then (stoi value).map fun action => { draft with action := some action }
      else if field = text "system" then some { draft with system := some value }
      else if field = text "name" then some { draft with name := some value }
      else if field = text "version" then some { draft with version := some value }
      else if field = text "sourcePath" then some { draft with sourcePath := some value }
      else if field = text "localTarget" then
        if value = text "1" then some { draft with localTarget := some true }
        else if value = text "0" then some { draft with localTarget := some false }
        else none
      else if field = text "status" then some { draft with status := some value }
      else if field = text "error" then some { draft with errorMessage := some value }
      else some draft

def deserializeItem (key payload : List α) : Option (TransactionItemRecord α) := do
  let (runId, itemId) ← parseItemKey key
  let draft ← (pieces newlineSymbol payload).foldlM readItemLine {}
  let sequence ← draft.sequence
  let action ← draft.action
  let system ← draft.system
  let name ← draft.name
  let version ← draft.version
  let sourcePath ← draft.sourcePath
  let localTarget ← draft.localTarget
  let status ← draft.status
  let errorMessage ← draft.errorMessage
  if status.isEmpty then none
  else
    some { runId, itemId, sequence, status, errorMessage
           package := { action, system, name, version, sourcePath, localTarget } }

end Items

section RoundTrip

/-- Reading a written line of a run sets the field it names. -/
theorem readRunLine_fieldLine {field : String} (ascii : isAscii field = true)
    (plain : '=' ∉ field.toList) (run : TransactionRunRecord α) (value : List α) :
    readRunLine run (fieldLine field value) =
      if field = "state" then { run with state := value }
      else if field = "createdAt" then { run with createdAt := value }
      else if field = "updatedAt" then { run with updatedAt := value }
      else if field = "flags" then
        { run with flags := run.flags ++ (pieces semicolon value).filter fun flag => !flag.isEmpty }
      else run := by
  have known : ∀ {literal : String}, isAscii literal = true →
      ((text field : List α) = text literal ↔ field = literal) := fun literal => text_eq_text ascii literal
  rw [readRunLine, cutAt_fieldLine ascii plain]
  simp (disch := decide) only [unescape_escape, known]

/-- The line of the flags changes the flags only. -/
theorem readRunLine_flags (run : TransactionRunRecord α) (value : List α) :
    ∃ flags, readRunLine run (text "flags" ++ equalsSign :: value) = { run with flags := flags } := by
  have cut : cutAt equalsSign (text "flags" ++ equalsSign :: value) = some (text "flags", value) :=
    cutAt_append (symbol_not_mem_text (by decide) (by decide) (by decide)) value
  rw [readRunLine, cut]
  simp (disch := decide) only [text_eq_text, String.reduceEq, reduceIte]
  exact ⟨_, rfl⟩

theorem newline_not_mem_intercalate {values : List (List α)} (absent : ∀ value ∈ values, newlineSymbol ∉ value) :
    newlineSymbol ∉ [semicolon].intercalate values := by
  have notSemicolon : (newlineSymbol : α) ≠ semicolon := symbol_ne (by decide) (by decide) (by decide)
  induction values with
  | nil => simp
  | cons value values ih =>
      have rest := ih fun later member => absent later (List.mem_cons_of_mem _ member)
      cases values with
      | nil => simpa using absent value List.mem_cons_self
      | cons next others =>
          simp only [List.intercalate_cons_cons, List.mem_append, List.mem_singleton, not_or]
          exact ⟨⟨absent value List.mem_cons_self, notSemicolon⟩, rest⟩

theorem pieces_serializeRun (run : TransactionRunRecord α) :
    pieces newlineSymbol (serializeRun run) = runLines run := by
  apply pieces_terminated
  intro line member
  simp only [runLines, List.mem_cons, List.not_mem_nil, or_false] at member
  rcases member with rfl | rfl | rfl | rfl
  · exact newline_not_mem_fieldLine (by decide) (by decide) _
  · exact newline_not_mem_fieldLine (by decide) (by decide) _
  · exact newline_not_mem_fieldLine (by decide) (by decide) _
  · have inField : (newlineSymbol : α) ∉ text "flags" := symbol_not_mem_text (by decide) (by decide) (by decide)
    have notEquals : (newlineSymbol : α) ≠ equalsSign := symbol_ne (by decide) (by decide) (by decide)
    simp only [List.mem_append, List.mem_cons, not_or]
    refine ⟨inField, notEquals, newline_not_mem_intercalate fun value listed => ?_⟩
    obtain ⟨flag, _, rfl⟩ := List.mem_map.mp listed
    exact newline_not_mem_escape flag

/-- A written run is read back under any id; only its flags may be cut differently. -/
theorem deserialize_serializeRun {run : TransactionRunRecord α} {runId : List α} (named : runId ≠ [])
    (stated : run.state ≠ []) (created : run.createdAt ≠ []) (updated : run.updatedAt ≠ []) :
    ∃ flags, deserializeRun runId (serializeRun run) = some { run with id := runId, flags := flags } := by
  have lines : ∃ flags, (runLines run).foldl readRunLine { id := runId } =
      { run with id := runId, flags := flags } := by
    simp (disch := decide) only [runLines, List.foldl_cons, List.foldl_nil, readRunLine_fieldLine,
      String.reduceEq, reduceIte]
    obtain ⟨flags, read⟩ := readRunLine_flags
      { id := runId, state := run.state, createdAt := run.createdAt, updatedAt := run.updatedAt }
      ([semicolon].intercalate (run.flags.map escape))
    exact ⟨flags, read⟩
  obtain ⟨flags, read⟩ := lines
  exact ⟨flags, by simp [deserializeRun, pieces_serializeRun, read, named, stated, created, updated]⟩

theorem deserializeRun_stated {runId payload : List α} {run : TransactionRunRecord α}
    (read : deserializeRun runId payload = some run) :
    run.state ≠ [] ∧ run.createdAt ≠ [] ∧ run.updatedAt ≠ [] := by
  unfold deserializeRun at read
  simp only [Option.ite_none_left_eq_some, Bool.or_eq_true, List.isEmpty_iff, not_or,
    Option.some.injEq] at read
  obtain ⟨⟨⟨⟨_, stated⟩, created⟩, updated⟩, rfl⟩ := read
  exact ⟨stated, created, updated⟩

end RoundTrip

end ReqPack.Storage
