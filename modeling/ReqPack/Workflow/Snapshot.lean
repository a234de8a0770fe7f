import ReqPack.Data.LuaTable

/-! # Snapshots

`SnapshotExporter::render` writes the installed packages as a Lua table, and
`ManifestLoader::load` reads such a table when a system is set up again.
-/

namespace ReqPack.Workflow

open ReqPack.Data
open ReqPack.Data.Ascii

/-! ## Rendering -/

/-- What a snapshot keeps of an installed package; the store has no entry without a system
or a name. -/
structure SnapshotEntry where
  system : Bytes
  name : Bytes
  version : Bytes
  hasSystem : system ≠ []
  hasName : name ≠ []

def luaEscape (value : Bytes) : Bytes :=
  value.flatMap fun c => if c = backslash then [backslash, backslash]
    else if c = doubleQuote then [backslash, doubleQuote] else [c]

def renderSnapshotEntry (entry : SnapshotEntry) : Bytes :=
  bytes "    \x7b system = \"" ++ luaEscape entry.system ++ bytes "\", name = \"" ++ luaEscape entry.name ++
    bytes "\", version = \"" ++ luaEscape entry.version ++ bytes "\" \x7d,\n"

/-- `SnapshotExporter::render`. -/
def renderSnapshot (entries : List SnapshotEntry) : Bytes :=
  bytes "-- Generated by ReqPack snapshot\n" ++ bytes "return \x7b\n" ++ bytes "  packages = \x7b\n" ++
    entries.flatMap renderSnapshotEntry ++ bytes "  \x7d,\n" ++ bytes "\x7d\n"

/-! ## Loading -/

structure ManifestEntry where
  system : Bytes
  name : Bytes
  version : Bytes
  flags : List Bytes
deriving DecidableEq, Repr

inductive ManifestError
  /-- the text cannot be read or run; Lua says why -/
  | lua
  | message (text : Bytes)
deriving DecidableEq, Repr

/-- The fields of a table that are still there when the constructor is done. -/
def tableFields : List (Option Bytes × Lua.Value) → List (Option Bytes × Lua.Value)
  | [] => []
  | field :: fields =>
      if field.1.isSome && fields.any (fun later => later.1 == field.1) then tableFields fields
      else field :: tableFields fields

/-- A field that has to hold a string with something in it. -/
def requiredField (sourceLabel : Bytes) (entryIndex : Nat) (package : Lua.Value) (key : String) :
    Except ManifestError Bytes :=
  match (package.field (bytes key)).bind Lua.Value.text with
  | some value =>
      if value.isEmpty then
        .error (.message (sourceLabel ++ bytes " entry #" ++ toDecimal entryIndex ++ bytes " is missing '" ++ bytes key ++
          bytes "'"))
      else .ok value
  | none =>
      .error (.message (sourceLabel ++ bytes " entry #" ++ toDecimal entryIndex ++ bytes " is missing '" ++ bytes key ++
        bytes "'"))

/-- The body of the loop of `parse_packages_table`. -/
def parsePackage (sourceLabel : Bytes) (entryIndex : Nat) (package : Lua.Value) : Except ManifestError ManifestEntry := do
  if !package.isTable then
    throw (.message (sourceLabel ++ bytes " entry #" ++ toDecimal entryIndex ++ bytes " is not a table"))
  let system ← requiredField sourceLabel entryIndex package "system"
  let name ← requiredField sourceLabel entryIndex package "name"
  return { system, name
           version := ((package.field (bytes "version")).bind Lua.Value.text).getD []
           flags := (tableFields (((package.field (bytes "flags")).map Lua.Value.fields).getD [])).filterMap
             fun flag => flag.2.text }

def parsePackagesTable (sourceLabel : Bytes) (entryIndex : Nat) :
    List (Option Bytes × Lua.Value) → Except ManifestError (List ManifestEntry)
  | [] => .ok []
  | field :: fields => do
      let entry ← parsePackage sourceLabel entryIndex field.2
      let entries ← parsePackagesTable sourceLabel (entryIndex + 1) fields
      return entry :: entries

/-- The `packages` table of what the manifest returns; a manifest of this form sets no
global variable. -/
def resolvePackagesTable (root : Lua.Value) : Option (List (Option Bytes × Lua.Value)) :=
  match root.field (bytes "packages") with
  | some (.table fields) => some (tableFields fields)
  | _ => none

/-- `ManifestLoader::load` of a file with this content. -/
def loadManifest (manifestPath content : Bytes) : Except ManifestError (List ManifestEntry) :=
  match Lua.eval content with
  | none => .error .lua
  | some root =>
      match resolvePackagesTable root with
      | none => .error (.message (bytes "manifest '" ++ manifestPath ++ bytes "' has no 'packages' table"))
      | some fields => parsePackagesTable (bytes "manifest '" ++ manifestPath ++ bytes "'") 1 fields

/-! ## Reading a snapshot -/

section Rendered

open Lua

def entryTokens (entry : SnapshotEntry) : List Token :=
  [.symbol 123, .name (bytes "system"), .symbol 61, .string entry.system, .symbol 44,
    .name (bytes "name"), .symbol 61, .string entry.name, .symbol 44,
    .name (bytes "version"), .symbol 61, .string entry.version, .symbol 125, .symbol 44]

/-- No value of the entry holds a line break. -/
def SnapshotEntry.isOneLine (entry : SnapshotEntry) : Bool :=
  Lua.isOneLine entry.system && Lua.isOneLine entry.name && Lua.isOneLine entry.version

theorem luaEscape_eq_quoteString : luaEscape = quoteString := rfl

theorem run_systemKey (tokens : List Token) :
    (⟨tokens, .code⟩ : Lexer).run (bytes "    \x7b system = \"") =
      some ⟨.symbol 61 :: .name (bytes "system") :: .symbol 123 :: tokens, .string doubleQuote []⟩ := rfl

theorem run_nameKey (tokens : List Token) (system : Bytes) :
    (⟨tokens, .string doubleQuote system⟩ : Lexer).run (bytes "\", name = \"") =
      some ⟨.symbol 61 :: .name (bytes "name") :: .symbol 44 :: .string system :: tokens, .string doubleQuote []⟩ := rfl

theorem run_versionKey (tokens : List Token) (name : Bytes) :
    (⟨tokens, .string doubleQuote name⟩ : Lexer).run (bytes "\", version = \"") =
      some ⟨.symbol 61 :: .name (bytes "version") :: .symbol 44 :: .string name :: tokens, .string doubleQuote []⟩ := rfl

theorem run_entryEnd (tokens : List Token) (version : Bytes) :
    (⟨tokens, .string doubleQuote version⟩ : Lexer).run (bytes "\" \x7d,\n") =
      some ⟨.symbol 44 :: .symbol 125 :: .string version :: tokens, .code⟩ := rfl

/-- Reading an entry adds its tokens, or it fails at a line break. -/
theorem run_renderSnapshotEntry (tokens : List Token) (entry : SnapshotEntry) :
    (⟨tokens, .code⟩ : Lexer).run (renderSnapshotEntry entry) =
      if entry.isOneLine then some ⟨(entryTokens entry).reverse ++ tokens, .code⟩ else none := by
  simp only [renderSnapshotEntry, luaEscape_eq_quoteString, Lexer.run_append, run_systemKey, Option.bind_some]
  by_cases system : isOneLine entry.system = true
  · rw [Lexer.run_quoteString _ _ system, Option.bind_some, run_nameKey, Option.bind_some]
    by_cases name : isOneLine entry.name = true
    · rw [Lexer.run_quoteString _ _ name, Option.bind_some, run_versionKey, Option.bind_some]
      by_cases version : isOneLine entry.version = true
      · rw [Lexer.run_quoteString _ _ version, Option.bind_some, run_entryEnd,
          if_pos (by simp [SnapshotEntry.isOneLine, system, name, version])]
        rfl
      · rw [Lexer.run_quoteString_none _ _ (Bool.eq_false_of_not_eq_true version),
          if_neg (by simp [SnapshotEntry.isOneLine, version])]
        rfl
    · rw [Lexer.run_quoteString_none _ _ (Bool.eq_false_of_not_eq_true name),
        if_neg (by simp [SnapshotEntry.isOneLine, name])]
      rfl
  · rw [Lexer.run_quoteString_none _ _ (Bool.eq_false_of_not_eq_true system),
      if_neg (by simp [SnapshotEntry.isOneLine, system])]
    rfl

theorem run_renderSnapshotEntries (tokens : List Token) (entries : List SnapshotEntry) :
    (⟨tokens, .code⟩ : Lexer).run (entries.flatMap renderSnapshotEntry) =
      if entries.all SnapshotEntry.isOneLine then some ⟨(entries.flatMap entryTokens).reverse ++ tokens, .code⟩
      else none := by
  induction entries generalizing tokens with
  | nil => rfl
  | cons entry entries ih =>
      rw [List.flatMap_cons, Lexer.run_append, run_renderSnapshotEntry, List.all_cons, List.flatMap_cons]
      cases oneLine : entry.isOneLine with
      | false => rfl
      | true =>
          simp only [if_true, Option.bind_some, ih, Bool.true_and, List.reverse_append, List.append_assoc]

/-- The tokens around the entries. -/
def headTokens : List Token :=
  [.name (bytes "return"), .symbol 123, .name (bytes "packages"), .symbol 61, .symbol 123]

def endTokens : List Token := [.symbol 125, .symbol 44, .symbol 125]

theorem run_head :
    Lexer.start.run (bytes "-- Generated by ReqPack snapshot\n" ++ bytes "return \x7b\n" ++ bytes "  packages = \x7b\n") =
      some ⟨headTokens.reverse, .code⟩ := rfl

theorem run_end (tokens : List Token) :
    (⟨tokens, .code⟩ : Lexer).run (bytes "  \x7d,\n" ++ bytes "\x7d\n") = some ⟨endTokens.reverse ++ tokens, .code⟩ := rfl

theorem lex_renderSnapshot (entries : List SnapshotEntry) :
    lex (renderSnapshot entries) =
      if entries.all SnapshotEntry.isOneLine then some (headTokens ++ entries.flatMap entryTokens ++ endTokens)
      else none := by
  rw [lex, renderSnapshot, List.append_assoc _ (bytes "  \x7d,\n"), Lexer.run_append, Lexer.run_append, run_head,
    Option.bind_some, run_renderSnapshotEntries]
  cases entries.all SnapshotEntry.isOneLine with
  | false => rfl
  | true =>
      simp only [if_true, Option.bind_some, run_end, Lexer.finish, List.reverse_append, List.reverse_reverse,
        List.append_assoc]

/-! ## The table behind the tokens -/

def entryValue (entry : SnapshotEntry) : Value :=
  .table [(some (bytes "system"), .string entry.system), (some (bytes "name"), .string entry.name),
    (some (bytes "version"), .string entry.version)]

theorem run_entryTokens (fields : List (Option Bytes × Value)) (outer : List OpenTable) (entry : SnapshotEntry) :
    (Parser.tables ⟨fields, .start⟩ outer).run (entryTokens entry) =
      some (.tables ⟨(none, entryValue entry) :: fields, .start⟩ outer) := rfl

theorem run_entriesTokens (fields : List (Option Bytes × Value)) (outer : List OpenTable)
    (entries : List SnapshotEntry) :
    (Parser.tables ⟨fields, .start⟩ outer).run (entries.flatMap entryTokens) =
      some (.tables ⟨(entries.map fun entry => (none, entryValue entry)).reverse ++ fields, .start⟩ outer) := by
  induction entries generalizing fields with
  | nil => rfl
  | cons entry entries ih =>
      rw [List.flatMap_cons, Parser.run_append, run_entryTokens, Option.bind_some, ih]
      simp

theorem run_headTokens :
    Parser.start.run headTokens = some (.tables ⟨[], .start⟩ [⟨[], .keyed (bytes "packages")⟩]) := rfl

theorem run_endTokens (fields : List (Option Bytes × Value)) :
    (Parser.tables ⟨fields, .start⟩ [⟨[], .keyed (bytes "packages")⟩]).run endTokens =
      some (.returned (.table [(some (bytes "packages"), .table fields.reverse)])) := rfl

/-- What a snapshot evaluates to. -/
theorem eval_renderSnapshot (entries : List SnapshotEntry) :
    eval (renderSnapshot entries) =
      if entries.all SnapshotEntry.isOneLine then
        some (.table [(some (bytes "packages"), .table (entries.map fun entry => (none, entryValue entry)))])
      else none := by
  rw [eval, lex_renderSnapshot]
  cases entries.all SnapshotEntry.isOneLine with
  | false => rfl
  | true =>
      simp only [if_true, Option.bind_some, Parser.run_append, run_headTokens, run_entriesTokens, run_endTokens,
        List.append_nil, List.reverse_reverse]
      rfl

end Rendered

/-! ## What is restored -/

def SnapshotEntry.manifestEntry (entry : SnapshotEntry) : ManifestEntry where
  system := entry.system
  name := entry.name
  version := entry.version
  flags := []

theorem tableFields_positional (values : List Lua.Value) :
    tableFields (values.map fun value => (none, value)) = values.map fun value => (none, value) := by
  induction values with
  | nil => rfl
  | cons value values ih => rw [List.map_cons, tableFields, ih]; rfl

theorem parsePackage_entryValue (sourceLabel : Bytes) (entryIndex : Nat) (entry : SnapshotEntry) :
    parsePackage sourceLabel entryIndex (entryValue entry) = .ok entry.manifestEntry := by
  have system : requiredField sourceLabel entryIndex (entryValue entry) "system" = .ok entry.system := by
    have found : ((entryValue entry).field (bytes "system")).bind Lua.Value.text = some entry.system := rfl
    simp [requiredField, found, entry.hasSystem]
  have name : requiredField sourceLabel entryIndex (entryValue entry) "name" = .ok entry.name := by
    have found : ((entryValue entry).field (bytes "name")).bind Lua.Value.text = some entry.name := rfl
    simp [requiredField, found, entry.hasName]
  rw [parsePackage, system, name]
  rfl

theorem parsePackagesTable_entries (sourceLabel : Bytes) (entryIndex : Nat) (entries : List SnapshotEntry) :
    parsePackagesTable sourceLabel entryIndex (entries.map fun entry => (none, entryValue entry)) =
      .ok (entries.map SnapshotEntry.manifestEntry) := by
  induction entries generalizing entryIndex with
  | nil => rfl
  | cons entry entries ih =>
      rw [List.map_cons, parsePackagesTable, parsePackage_entryValue, ih]
      rfl

/-- A snapshot is read back when no value in it holds a line break; otherwise Lua refuses
the whole text. -/
theorem loadManifest_renderSnapshot (manifestPath : Bytes) (entries : List SnapshotEntry) :
    loadManifest manifestPath (renderSnapshot entries) =
      if entries.all SnapshotEntry.isOneLine then .ok (entries.map SnapshotEntry.manifestEntry)
      else .error .lua := by
  rw [loadManifest, eval_renderSnapshot]
  cases entries.all SnapshotEntry.isOneLine with
  | false => rfl
  | true =>
      have fields := tableFields_positional (entries.map entryValue)
      rw [List.map_map] at fields
      have resolved : resolvePackagesTable
          (.table [(some (bytes "packages"), .table (entries.map fun entry => (none, entryValue entry)))]) =
          some (entries.map fun entry => (none, entryValue entry)) := by
        have found : (Lua.Value.table [(some (bytes "packages"),
            .table (entries.map fun entry => (none, entryValue entry)))]).field (bytes "packages") =
            some (.table (entries.map fun entry => (none, entryValue entry))) := rfl
        rw [resolvePackagesTable, found]
        exact congrArg some fields
      simp only [if_true, resolved]
      exact parsePackagesTable_entries _ 1 entries

/-- Each installed package comes back once, in the order of the snapshot, exactly when no
system, name or version holds a line break. -/
theorem snapshot_restores_iff (manifestPath : Bytes) (entries : List SnapshotEntry) :
    (∃ restored, loadManifest manifestPath (renderSnapshot entries) = .ok restored ∧
        restored.map (fun entry => (entry.system, entry.name, entry.version)) =
          entries.map fun entry => (entry.system, entry.name, entry.version)) ↔
      ∀ entry ∈ entries, entry.isOneLine = true := by
  rw [loadManifest_renderSnapshot, ← List.all_eq_true]
  cases entries.all SnapshotEntry.isOneLine with
  | false => simp
  | true =>
      simp only [if_true, iff_true]
      refine ⟨_, rfl, ?_⟩
      rw [List.map_map]
      rfl

/-- A package whose name holds a line break. -/
def brokenName : SnapshotEntry where
  system := bytes "npm"
  name := bytes "left\npad"
  version := bytes "1.0"
  hasSystem := by decide
  hasName := by decide

/-- The snapshot of a package with a line break in its name is no Lua text. -/
theorem broken_name_not_restored :
    ¬ ∀ (manifestPath : Bytes) (entries : List SnapshotEntry),
      ∃ restored, loadManifest manifestPath (renderSnapshot entries) = .ok restored ∧
        restored.map (fun entry => (entry.system, entry.name, entry.version)) =
          entries.map fun entry => (entry.system, entry.name, entry.version) := by
  intro all
  obtain ⟨restored, loaded, _⟩ := all (bytes "reqpack.lua") [brokenName]
  have refused : loadManifest (bytes "reqpack.lua") (renderSnapshot [brokenName]) = .error .lua := by
    rw [loadManifest_renderSnapshot]
    rfl
  rw [refused] at loaded
  cases loaded

end ReqPack.Workflow
