import Mathlib.Data.List.Dedup
import Mathlib.Data.List.Sort
import ReqPack.Data.Text

/-! # How an installed entry is stored

`history_manager_entry_codec`: an entry is a record of lines `field=value`, filed
under a key made of its system, name and version.
-/

namespace ReqPack.Storage

open ReqPack.Data

variable {α : Type} [Alphabet α]

structure StoredEntry (α : Type) where
  name : List α := []
  version : List α := []
  system : List α := []
  installedAt : List α := []
  installMethod : List α := []
  owners : List (List α) := []
deriving DecidableEq

def ownerHasPrefix (owner : List α) (kind : String) : Bool :=
  (text kind ++ [newlineSymbol]).isPrefixOf owner

/-- Drop empty owners, then `std::sort` and `std::unique`. -/
def normalizeOwners (owners : List (List α)) : List (List α) :=
  ((owners.filter fun owner => !owner.isEmpty).insertionSort (· ≤ ·)).dedup

def installMethodFromOwners (owners : List (List α)) : List α :=
  let hasExplicit := owners.any fun owner => ownerHasPrefix owner "root"
  let hasDependency := owners.any fun owner => ownerHasPrefix owner "pkg"
  if hasExplicit && hasDependency then text "explicit+dependency"
  else if hasExplicit then text "explicit"
  else if hasDependency then text "dependency"
  else text "unknown"

/-- One line of a record. -/
def fieldLine (field : String) (value : List α) : List α := text field ++ equalsSign :: escape value

def entryLines (entry : StoredEntry α) : List (List α) :=
  [fieldLine "name" entry.name, fieldLine "version" entry.version, fieldLine "system" entry.system,
    fieldLine "installedAt" entry.installedAt, fieldLine "installMethod" entry.installMethod] ++
      entry.owners.map (fieldLine "owner")

def serializeInstalledEntry (entry : StoredEntry α) : List α := [newlineSymbol].intercalate (entryLines entry)

/-- What `deserialize_installed_entry` does with one line. -/
def readEntryLine (entry : StoredEntry α) (line : List α) : StoredEntry α :=
  match cutAt equalsSign line with
  | none => entry
  | some (field, escaped) =>
      let value := unescape escaped
      if field = text "name" then { entry with name := value }
      else if field = text "version" then { entry with version := value }
      else if field = text "system" then { entry with system := value }
      else if field = text "installedAt" then { entry with installedAt := value }
      else if field = text "installMethod" then { entry with installMethod := value }
      else if field = text "owner" then { entry with owners := entry.owners ++ [value] }
      else entry

/-- The entry with its owners in order and with a method if none was written. -/
def completeEntry (entry : StoredEntry α) : StoredEntry α :=
  let owners := normalizeOwners entry.owners
  { entry with
    owners := owners
    installMethod := if entry.installMethod.isEmpty then installMethodFromOwners owners
      else entry.installMethod }

def deserializeInstalledEntry (payload : List α) : Option (StoredEntry α) :=
  let entry := (pieces newlineSymbol payload).foldl readEntryLine {}
  if entry.name.isEmpty || entry.system.isEmpty then none else some (completeEntry entry)

def installedStateKey (system name version : List α) : List α :=
  text "pkg:" ++ (escape system ++ newlineSymbol :: (escape name ++ newlineSymbol :: escape version))

def installedStateSystemPrefix (system : List α) : List α :=
  text "pkg:" ++ (escape system ++ [newlineSymbol])

def installedStateNamePrefix (system name : List α) : List α :=
  installedStateSystemPrefix system ++ (escape name ++ [newlineSymbol])

def installedStateIdentity (entry : StoredEntry α) : List α :=
  escape entry.name ++ newlineSymbol :: escape entry.version

section Owners

theorem normalizeOwners_sorted (owners : List (List α)) : (normalizeOwners owners).Pairwise (· < ·) := by
  have ordered : (normalizeOwners owners).Pairwise (· ≤ ·) :=
    (List.pairwise_insertionSort _ _).sublist (List.dedup_sublist _)
  have distinct : (normalizeOwners owners).Nodup := List.nodup_dedup _
  exact (ordered.and distinct).imp fun both => lt_of_le_of_ne both.1 both.2

@[simp] theorem mem_normalizeOwners {owners : List (List α)} {owner : List α} :
    owner ∈ normalizeOwners owners ↔ owner ∈ owners ∧ owner ≠ [] := by
  simp [normalizeOwners]

theorem normalizeOwners_of_sorted {owners : List (List α)} (sorted : owners.Pairwise (· < ·))
    (named : [] ∉ owners) : normalizeOwners owners = owners := by
  have kept : (owners.filter fun owner => !owner.isEmpty) = owners := by
    rw [List.filter_eq_self]
    intro owner member
    have present : owner ≠ [] := fun empty => named (empty ▸ member)
    simpa using present
  have inOrder : owners.insertionSort (· ≤ ·) = owners :=
    (sorted.imp fun less => less.le).insertionSort_eq
  rw [normalizeOwners, kept, inOrder, List.Nodup.dedup (sorted.imp fun less => less.ne)]

theorem normalizeOwners_idem (owners : List (List α)) :
    normalizeOwners (normalizeOwners owners) = normalizeOwners owners :=
  normalizeOwners_of_sorted (normalizeOwners_sorted owners) (by simp)

theorem installMethodFromOwners_ne_nil (owners : List (List α)) : installMethodFromOwners owners ≠ [] := by
  simp only [installMethodFromOwners]
  split
  · simp [text]
  · split
    · simp [text]
    · split <;> simp [text]

end Owners

section RoundTrip

theorem newline_not_mem_fieldLine {field : String} (ascii : isAscii field = true)
    (oneLine : '\n' ∉ field.toList) (value : List α) : newlineSymbol ∉ fieldLine field value := by
  have inField : (newlineSymbol : α) ∉ text field := symbol_not_mem_text (by decide) ascii oneLine
  have notEquals : (newlineSymbol : α) ≠ equalsSign := symbol_ne (by decide) (by decide) (by decide)
  simp only [fieldLine, List.mem_append, List.mem_cons, not_or]
  exact ⟨inField, notEquals, newline_not_mem_escape value⟩

theorem cutAt_fieldLine {field : String} (ascii : isAscii field = true) (plain : '=' ∉ field.toList)
    (value : List α) : cutAt equalsSign (fieldLine field value) = some (text field, escape value) :=
  cutAt_append (symbol_not_mem_text (by decide) ascii plain) (escape value)

theorem pieces_serializeInstalledEntry (entry : StoredEntry α) :
    pieces newlineSymbol (serializeInstalledEntry entry) = entryLines entry := by
  apply pieces_separated
  intro line member
  have shape : ∃ field value, line = fieldLine field value ∧ isAscii field = true ∧ '\n' ∉ field.toList := by
    simp only [entryLines, List.mem_append, List.mem_cons, List.not_mem_nil, or_false,
      List.mem_map] at member
    rcases member with (rfl | rfl | rfl | rfl | rfl) | ⟨owner, _, rfl⟩
    all_goals exact ⟨_, _, rfl, by decide, by decide⟩
  obtain ⟨field, value, rfl, ascii, oneLine⟩ := shape
  exact ⟨newline_not_mem_fieldLine ascii oneLine value, by simp [fieldLine]⟩

/-- Reading a line that was written sets the field it names. -/
theorem readEntryLine_fieldLine {field : String} (ascii : isAscii field = true)
    (plain : '=' ∉ field.toList) (entry : StoredEntry α) (value : List α) :
    readEntryLine entry (fieldLine field value) =
      if field = "name" then { entry with name := value }
      else if field = "version" then { entry with version := value }
      else if field = "system" then { entry with system := value }
      else if field = "installedAt" then { entry with installedAt := value }
      else if field = "installMethod" then { entry with installMethod := value }
      else if field = "owner" then { entry with owners := entry.owners ++ [value] }
      else entry := by
  have known : ∀ {literal : String}, isAscii literal = true →
      ((text field : List α) = text literal ↔ field = literal) := fun literal => text_eq_text ascii literal
  rw [readEntryLine, cutAt_fieldLine ascii plain]
  simp (disch := decide) only [unescape_escape, known]

theorem foldl_readEntryLine_owners (entry : StoredEntry α) (owners : List (List α)) :
    (owners.map (fieldLine "owner")).foldl readEntryLine entry =
      { entry with owners := entry.owners ++ owners } := by
  induction owners generalizing entry with
  | nil => simp
  | cons owner owners ih =>
      rw [List.map_cons, List.foldl_cons, readEntryLine_fieldLine (by decide) (by decide), ih]
      simp

/-- Every field comes back as it was written. -/
theorem foldl_readEntryLine (entry : StoredEntry α) :
    (entryLines entry).foldl readEntryLine {} = entry := by
  rw [entryLines, List.foldl_append, foldl_readEntryLine_owners]
  simp (disch := decide) only [List.foldl_cons, List.foldl_nil, readEntryLine_fieldLine,
    String.reduceEq, reduceIte, List.nil_append]

theorem deserialize_serialize {entry : StoredEntry α} (named : entry.name ≠ [])
    (filed : entry.system ≠ []) :
    deserializeInstalledEntry (serializeInstalledEntry entry) = some (completeEntry entry) := by
  simp [deserializeInstalledEntry, pieces_serializeInstalledEntry, foldl_readEntryLine, named, filed]

/-- Whatever is read has its owners in order. -/
theorem deserialize_owners {payload : List α} {entry : StoredEntry α}
    (read : deserializeInstalledEntry payload = some entry) :
    entry.owners.Pairwise (· < ·) ∧ [] ∉ entry.owners ∧ entry.name ≠ [] ∧ entry.system ≠ [] := by
  unfold deserializeInstalledEntry at read
  simp only [Option.ite_none_left_eq_some, Bool.or_eq_true, List.isEmpty_iff, not_or,
    Option.some.injEq] at read
  obtain ⟨present, rfl⟩ := read
  exact ⟨normalizeOwners_sorted _, by simp [completeEntry], present⟩

end RoundTrip

section Keys

/-- The key tells system, name and version apart, whatever characters they hold. -/
theorem installedStateKey_inj {system name version system' name' version' : List α} :
    installedStateKey system name version = installedStateKey system' name' version' ↔
      system = system' ∧ name = name' ∧ version = version' := by
  simp only [installedStateKey, List.append_cancel_left_eq,
    separated_inj (newline_not_mem_escape _) (newline_not_mem_escape _), escape_inj]

theorem starts_installedStateKey (system name version : List α) :
    text "pkg:" <+: installedStateKey system name version :=
  List.prefix_append _ _

theorem installedStateSystemPrefix_starts_iff {system system' name version : List α} :
    installedStateSystemPrefix system <+: installedStateKey system' name version ↔ system = system' := by
  simp only [installedStateSystemPrefix, installedStateKey, List.prefix_append_right_inj,
    leads_separated_iff (newline_not_mem_escape _) (newline_not_mem_escape _), escape_inj]

theorem installedStateNamePrefix_starts_iff {system name system' name' version : List α} :
    installedStateNamePrefix system name <+: installedStateKey system' name' version ↔
      system = system' ∧ name = name' := by
  constructor
  · intro starts
    have bySystem : system = system' :=
      installedStateSystemPrefix_starts_iff.1 ((List.prefix_append _ _).trans starts)
    subst bySystem
    simp only [installedStateNamePrefix, installedStateSystemPrefix, installedStateKey,
      List.append_assoc, List.prefix_append_right_inj, List.cons_append, List.nil_append,
      List.prefix_cons_inj,
      leads_separated_iff (newline_not_mem_escape _) (newline_not_mem_escape _), escape_inj] at starts
    exact ⟨rfl, starts⟩
  · intro same
    obtain ⟨rfl, rfl⟩ := same
    exact ⟨escape version, by simp [installedStateNamePrefix, installedStateSystemPrefix, installedStateKey]⟩

end Keys

section Octets

open scoped ReqPack.Data.Octets

/-- An entry of arbitrary bytes is read back as it was written, up to the order of its
owners, and no two packages share a key. -/
theorem installed_entry_codec :
    (∀ entry : StoredEntry UInt8, entry.name ≠ [] → entry.system ≠ [] → entry.installMethod ≠ [] →
      deserializeInstalledEntry (serializeInstalledEntry entry) =
          some { entry with owners := normalizeOwners entry.owners } ∧
        (entry.owners.Pairwise (· ≤ ·) → entry.owners.Nodup → [] ∉ entry.owners →
          deserializeInstalledEntry (serializeInstalledEntry entry) = some entry)) ∧
      ∀ system name version system' name' version' : List UInt8,
        installedStateKey system name version = installedStateKey system' name' version' →
          system = system' ∧ name = name' ∧ version = version' := by
  apply And.intro
  · intro entry named filed installed
    have completed : completeEntry entry = { entry with owners := normalizeOwners entry.owners } := by
      rw [completeEntry, if_neg (by simpa using installed)]
    have read := deserialize_serialize named filed
    rw [completed] at read
    refine ⟨read, ?_⟩
    intro sorted distinct present
    have increasing : entry.owners.Pairwise (· < ·) :=
      (sorted.and distinct).imp fun both => lt_of_le_of_ne both.1 both.2
    rw [read, normalizeOwners_of_sorted increasing present]
  · intro system name version system' name' version' same
    exact installedStateKey_inj.1 same

/-- A name with a line break, a backslash and an equals sign. -/
def awkwardEntry : StoredEntry UInt8 where
  name := [110, newlineSymbol, backslashSymbol, equalsSign]
  system := [equalsSign]
  installMethod := [backslashSymbol]
  owners := [[newlineSymbol], [backslashSymbol]]

theorem installed_entry_codec_awkward :
    deserializeInstalledEntry (serializeInstalledEntry awkwardEntry) = some awkwardEntry ∧
      installedStateKey ([1, newlineSymbol] : List UInt8) [2] [] ≠ installedStateKey [1] [newlineSymbol, 2] [] := by
  have read := installed_entry_codec.1 awkwardEntry (by decide) (by decide) (by decide)
  refine ⟨read.2 (by decide) (by decide) (by decide), ?_⟩
  intro same
  have systems := (installed_entry_codec.2 _ _ _ _ _ _ same).1
  revert systems
  decide

end Octets

end ReqPack.Storage
