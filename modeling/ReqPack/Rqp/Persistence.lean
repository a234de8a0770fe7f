import ReqPack.Data.FileGrowth
import ReqPack.Rqp.Extraction
import ReqPack.Rqp.StateStore

/-! # The state of an installed package on disk

`persistInstalledState` and the encodings of `source.json` and `manifest.json`.
-/

namespace ReqPack.Rqp

open ReqPack.Data
open ReqPack.Data.Ascii
open ReqPack.Data.FileSystem

/-! ## Files under text paths -/

/-- The current directory, the bound on links, and the order in which a directory lists
its names. -/
structure FileEnv where
  links : Nat
  cwd : Location Bytes
  listing : Nodes Bytes Bytes → Location Bytes → List Bytes

namespace FileEnv

variable (env : FileEnv)

def start (path : Bytes) : Location Bytes := if path.head? == some slash then [] else env.cwd

/-- A path that is empty for the operating system leads nowhere. -/
def resolve (follow : Bool) (nodes : Nodes Bytes Bytes) (path : Bytes) : Walk Bytes :=
  if (cString path).isEmpty then .failed
  else walk nodes follow env.links (env.start path) (nativeParts (cString path))

def read (nodes : Nodes Bytes Bytes) (path : Bytes) : Option Bytes :=
  if (cString path).isEmpty then none
  else readFile env.links (env.start path) (nativeParts (cString path)) nodes

def makeDirectories (path : Bytes) (disk : PayloadDisk) : Outcome Bytes Bytes :=
  if (cString path).isEmpty then (disk, false)
  else createDirectories env.links (env.start path) (nativeParts (cString path)) disk

def write (path content : Bytes) (disk : PayloadDisk) : Outcome Bytes Bytes :=
  if (cString path).isEmpty then (disk, false)
  else writeFile env.links (env.start path) (nativeParts (cString path)) content disk

def copy (source destination : Bytes) (disk : PayloadDisk) : Outcome Bytes Bytes :=
  if (cString source).isEmpty || (cString destination).isEmpty then (disk, false)
  else copyFile env.links (env.start source) (nativeParts (cString source)) (env.start destination)
    (nativeParts (cString destination)) disk

/-- Something stands at the path, be it a link that leads nowhere. -/
def Present (nodes : Nodes Bytes Bytes) (path : Bytes) : Prop := ∃ place, env.resolve false nodes path = .found place

instance (nodes : Nodes Bytes Bytes) (path : Bytes) : Decidable (env.Present nodes path) :=
  match resolved : env.resolve false nodes path with
  | .found place => .isTrue ⟨place, resolved⟩
  | .missing _ _ => .isFalse fun ⟨_, found⟩ => by cases resolved.symm.trans found
  | .failed => .isFalse fun ⟨_, found⟩ => by cases resolved.symm.trans found

end FileEnv

/-! ### Disks that grow -/

section Growth

variable {env : FileEnv} {disk : PayloadDisk} {nodes other : Nodes Bytes Bytes} {path content source : Bytes}

theorem FileEnv.start_directory (mounted : Mounted env.cwd nodes) (path : Bytes) :
    nodes (env.start path) = some .directory := by
  rw [FileEnv.start]
  split
  · exact mounted.rooted.root
  · exact mounted.base

theorem FileEnv.present_grows (grows : Grows nodes other) (present : env.Present nodes path) : env.Present other path := by
  obtain ⟨place, found⟩ := present
  refine ⟨place, ?_⟩
  rw [FileEnv.resolve] at found ⊢
  split at found
  · cases found
  · next filled =>
      rw [if_neg filled]
      exact walk_grows grows found

theorem FileEnv.makeDirectories_extends (mounted : Mounted env.cwd disk.nodes) (path : Bytes) :
    Extends env.cwd disk (env.makeDirectories path disk).1 := by
  rw [FileEnv.makeDirectories]
  split
  · exact Extends.refl mounted
  · exact createDirectories_extends mounted _ (FileEnv.start_directory mounted path)

theorem FileEnv.write_extends (mounted : Mounted env.cwd disk.nodes) (path content : Bytes) :
    Extends env.cwd disk (env.write path content disk).1 := by
  rw [FileEnv.write]
  split
  · exact Extends.refl mounted
  · exact writeFile_extends mounted _ content (FileEnv.start_directory mounted path)

theorem FileEnv.copy_extends (mounted : Mounted env.cwd disk.nodes) (source path : Bytes) :
    Extends env.cwd disk (env.copy source path disk).1 := by
  rw [FileEnv.copy]
  split
  · exact Extends.refl mounted
  · exact copyFile_extends mounted _ _ _ (FileEnv.start_directory mounted path)

theorem FileEnv.makeDirectories_present (mounted : Mounted env.cwd disk.nodes)
    (made : (env.makeDirectories path disk).2 = true) : env.Present (env.makeDirectories path disk).1.nodes path := by
  rw [FileEnv.makeDirectories] at made ⊢
  split at made
  · cases made
  · next filled =>
      rw [if_neg filled]
      obtain ⟨place, found⟩ := createDirectories_found mounted (FileEnv.start_directory mounted path) made
      obtain ⟨here, unfollowed⟩ := walk_unfollowed found
      exact ⟨here, by rw [FileEnv.resolve, if_neg filled, unfollowed]⟩

theorem FileEnv.read_write (mounted : Mounted env.cwd disk.nodes) (written : (env.write path content disk).2 = true) :
    env.read (env.write path content disk).1.nodes path = some content := by
  rw [FileEnv.write] at written ⊢
  split at written
  · cases written
  · next filled =>
      rw [FileEnv.read, if_neg filled, if_neg filled]
      exact readFile_writeFile mounted (FileEnv.start_directory mounted path) written

theorem FileEnv.read_present (found : env.read nodes path = some content) : env.Present nodes path := by
  rw [FileEnv.read] at found
  split at found
  · cases found
  · next filled =>
      rw [readFile] at found
      split at found
      · next place reached =>
          obtain ⟨here, unfollowed⟩ := walk_unfollowed reached
          exact ⟨here, by rw [FileEnv.resolve, if_neg filled, unfollowed]⟩
      · cases found

/-- A copy has the content of its source. -/
theorem FileEnv.copy_writes (copied : (env.copy source path disk).2 = true) :
    ∃ content, env.read disk.nodes source = some content ∧ (env.write path content disk).2 = true ∧
      (env.copy source path disk).1 = (env.write path content disk).1 := by
  rw [FileEnv.copy] at copied ⊢
  split at copied
  · cases copied
  · next filled =>
      obtain ⟨content, read, written, same⟩ := copyFile_writes copied
      rw [Bool.or_eq_true, not_or] at filled
      refine ⟨content, ?_, ?_, ?_⟩
      · rw [FileEnv.read, if_neg filled.1, read]
      · rw [FileEnv.write, if_neg filled.2, written]
      · rw [if_neg (by simp [filled.1, filled.2]), same, FileEnv.write, if_neg filled.2]

end Growth

/-! ## The files of the state -/

/-- What was loaded from a package archive, as far as the installation uses it. -/
structure RqPackageLayout where
  controlDir : Bytes
  stateDir : Bytes
  metadata : RqMetadata
  identity : Bytes
  hooks : List (Bytes × Bytes)

structure ManifestEntry where
  type : Bytes
  path : Bytes
deriving DecidableEq, Repr

/-- The reader of JSON texts and the escape of their strings. -/
structure JsonText where
  readTree : Bytes → Option Ptree
  escape : Bytes → Bytes

def sourceDocument (source : RqStateSource) (identity : Bytes) : Json :=
  .object ([("source", .text source.source), ("path", .text source.path), ("repository", .text source.repository),
    ("identity", .text identity)] ++
    if source.requestName.isEmpty then [] else [("requestName", .text source.requestName)])

def sourceJson (escape : Bytes → Bytes) (source : RqStateSource) (identity : Bytes) : Bytes :=
  (sourceDocument source identity).render escape [] ++ [newline]

def manifestLine (escape : Bytes → Bytes) (entry : ManifestEntry) : Bytes :=
  bytes "  \x7b\"type\": \"" ++ escape entry.type ++ bytes "\", \"path\": \"" ++ escape entry.path ++ bytes "\"\x7d"

def manifestLines (escape : Bytes → Bytes) : List ManifestEntry → Bytes
  | [] => []
  | [entry] => manifestLine escape entry ++ [newline]
  | entry :: entries => manifestLine escape entry ++ bytes "," ++ newline :: manifestLines escape entries

def manifestJson (escape : Bytes → Bytes) (manifest : List ManifestEntry) : Bytes :=
  bytes "[" ++ newline :: manifestLines escape manifest ++ bytes "]" ++ [newline]

def entryDocument (entry : ManifestEntry) : Json := .object [("type", .text entry.type), ("path", .text entry.path)]

def manifestDocument (manifest : List ManifestEntry) : Json := .array (manifest.map entryDocument)

/-- `get<std::string>` of type and path; what is not there is empty. -/
def readEntry (tree : Ptree) : ManifestEntry := ⟨(tree.text "type").getD [], (tree.text "path").getD []⟩

def parseManifestJson (readTree : Bytes → Option Ptree) (content : Bytes) : List ManifestEntry :=
  match readTree content with
  | none => []
  | some tree => tree.children.map fun child => readEntry child.2

/-- The reader reads the text of a manifest as that manifest. -/
def ReadsManifest (json : JsonText) (manifest : List ManifestEntry) : Prop :=
  json.readTree (manifestJson json.escape manifest) = some (manifestDocument manifest).tree

theorem readEntry_document (entry : ManifestEntry) : readEntry (entryDocument entry).tree = entry := rfl

theorem entries_tree (manifest : List ManifestEntry) :
    (Json.tree.itemTrees (manifest.map entryDocument)).map (fun child => readEntry child.2) = manifest := by
  induction manifest with
  | nil => rfl
  | cons entry manifest ih =>
      rw [List.map_cons, Json.tree.itemTrees, List.map_cons, readEntry_document, ih]

theorem parse_manifestJson {json : JsonText} {manifest : List ManifestEntry} (reads : ReadsManifest json manifest) :
    parseManifestJson json.readTree (manifestJson json.escape manifest) = manifest := by
  rw [parseManifestJson, reads]
  exact entries_tree manifest

/-! ## `persistInstalledState` -/

/-- How a function that may throw and that answers with a truth value ends. -/
inductive Completion
  | done
  | refused
  | thrown
deriving DecidableEq, Repr

abbrev Persisted := PayloadDisk × Completion

def orEnd (failure : Completion) (outcome : Outcome Bytes Bytes) : Persisted :=
  (outcome.1, if outcome.2 then .done else failure)

def Persisted.andThen (first : Persisted) (next : PayloadDisk → Persisted) : Persisted :=
  match first.2 with
  | .done => next first.1
  | _ => first

section Persisting

variable (env : FileEnv) (json : JsonText) (layout : RqPackageLayout)

def scriptsDir : Bytes := joinPath layout.controlDir (bytes "scripts")

def stateFile (name : String) : Bytes := joinPath layout.stateDir (bytes name)

/-- The loop of `persistInstalledState` over the names in the directory of the scripts. -/
def copyScripts : List Bytes → PayloadDisk → Persisted
  | [], disk => (disk, .done)
  | name :: names, disk =>
      match env.read disk.nodes (joinPath (scriptsDir layout) name) with
      | none => copyScripts names disk
      | some _ =>
          (orEnd .thrown (env.copy (joinPath (scriptsDir layout) name)
            (joinPath (stateFile layout "scripts") name) disk)).andThen (copyScripts names)

def copyScriptsDirectory (disk : PayloadDisk) : Persisted :=
  match env.resolve true disk.nodes (scriptsDir layout) with
  | .found location =>
      if isDirectory disk.nodes location then copyScripts env layout (env.listing disk.nodes location) disk
      else (disk, .thrown)
  | _ => (disk, .done)

/-- The contents of the files are taken to be written when the files are opened. -/
def persistInstalledState (source : RqStateSource) (pending : List ManifestEntry) (disk : PayloadDisk) : Persisted :=
  (orEnd .thrown (env.makeDirectories (stateFile layout "scripts") disk)).andThen fun disk =>
  (orEnd .refused (env.write (stateFile layout "metadata.json") (rqMetadataJson json.escape layout.metadata) disk)).andThen
    fun disk =>
  (orEnd .thrown (env.copy (joinPath layout.controlDir (bytes "reqpack.lua")) (stateFile layout "reqpack.lua")
    disk)).andThen fun disk =>
  (copyScriptsDirectory env layout disk).andThen fun disk =>
  (orEnd .refused (env.write (stateFile layout "source.json") (sourceJson json.escape source layout.identity)
    disk)).andThen fun disk =>
  orEnd .refused (env.write (stateFile layout "manifest.json") (manifestJson json.escape pending) disk)

end Persisting

section Persisted

variable {env : FileEnv} {json : JsonText} {layout : RqPackageLayout} {disk : PayloadDisk}

theorem Persisted.andThen_done {first : Persisted} {next : PayloadDisk → Persisted} :
    (first.andThen next).2 = .done ↔ first.2 = .done ∧ (next first.1).2 = .done := by
  rw [Persisted.andThen]
  cases ended : first.2 with
  | done => simp
  | refused => simp [ended]
  | thrown => simp [ended]

theorem Persisted.andThen_of_done {first : Persisted} (done : first.2 = .done) (next : PayloadDisk → Persisted) :
    first.andThen next = next first.1 := by
  rw [Persisted.andThen, done]

theorem Persisted.andThen_ended {first : Persisted} {next : PayloadDisk → Persisted} {P : Persisted → Prop}
    (done : (first.andThen next).2 = .done) (further : first.2 = .done → (next first.1).2 = .done → P (next first.1)) :
    P (first.andThen next) := by
  obtain ⟨begun, ended⟩ := Persisted.andThen_done.1 done
  rw [Persisted.andThen_of_done begun]
  exact further begun ended

theorem orEnd_done {failure : Completion} (failed : failure ≠ .done) {outcome : Outcome Bytes Bytes} :
    (orEnd failure outcome).2 = .done ↔ outcome.2 = true := by
  rw [orEnd]
  cases outcome.2 with
  | true => simp
  | false => simp [failed]

theorem Persisted.andThen_extends {first : Persisted} {next : PayloadDisk → Persisted}
    (extended : Extends env.cwd disk first.1)
    (further : Mounted env.cwd first.1.nodes → Extends env.cwd first.1 (next first.1).1) :
    Extends env.cwd disk (first.andThen next).1 := by
  rw [Persisted.andThen]
  split
  · exact extended.trans (further extended.mounted)
  · exact extended

theorem copyScripts_extends (mounted : Mounted env.cwd disk.nodes) (names : List Bytes) :
    Extends env.cwd disk (copyScripts env layout names disk).1 := by
  induction names generalizing disk with
  | nil => exact Extends.refl mounted
  | cons name names ih =>
      rw [copyScripts]
      split
      · exact ih mounted
      · exact Persisted.andThen_extends (FileEnv.copy_extends mounted _ _) ih

theorem copyScriptsDirectory_extends (mounted : Mounted env.cwd disk.nodes) :
    Extends env.cwd disk (copyScriptsDirectory env layout disk).1 := by
  rw [copyScriptsDirectory]
  split
  · split
    · exact copyScripts_extends mounted _
    · exact Extends.refl mounted
  · exact Extends.refl mounted

theorem persistInstalledState_extends (mounted : Mounted env.cwd disk.nodes) (source : RqStateSource)
    (pending : List ManifestEntry) :
    Extends env.cwd disk (persistInstalledState env json layout source pending disk).1 := by
  apply Persisted.andThen_extends (FileEnv.makeDirectories_extends mounted _)
  intro mounted
  apply Persisted.andThen_extends (FileEnv.write_extends mounted _ _)
  intro mounted
  apply Persisted.andThen_extends (FileEnv.copy_extends mounted _ _)
  intro mounted
  apply Persisted.andThen_extends (copyScriptsDirectory_extends mounted)
  intro mounted
  apply Persisted.andThen_extends (FileEnv.write_extends mounted _ _)
  intro mounted
  exact FileEnv.write_extends mounted _ _

/-- A state that was written has the manifest of what was pending. -/
theorem persistInstalledState_manifest (mounted : Mounted env.cwd disk.nodes) {source : RqStateSource}
    {pending : List ManifestEntry} (done : (persistInstalledState env json layout source pending disk).2 = .done) :
    env.read (persistInstalledState env json layout source pending disk).1.nodes (stateFile layout "manifest.json") =
      some (manifestJson json.escape pending) := by
  let Manifested : Persisted → Prop := fun persisted =>
    env.read persisted.1.nodes (stateFile layout "manifest.json") = some (manifestJson json.escape pending)
  have directories := @FileEnv.makeDirectories_extends env disk mounted (stateFile layout "scripts")
  refine Persisted.andThen_ended (P := Manifested) done fun _ done => ?_
  have metadata := FileEnv.write_extends directories.mounted (stateFile layout "metadata.json")
    (rqMetadataJson json.escape layout.metadata)
  refine Persisted.andThen_ended (P := Manifested) done fun _ done => ?_
  have hooks := FileEnv.copy_extends metadata.mounted (joinPath layout.controlDir (bytes "reqpack.lua"))
    (stateFile layout "reqpack.lua")
  refine Persisted.andThen_ended (P := Manifested) done fun _ done => ?_
  have scripts := @copyScriptsDirectory_extends env layout _ hooks.mounted
  refine Persisted.andThen_ended (P := Manifested) done fun _ done => ?_
  have origin := FileEnv.write_extends scripts.mounted (stateFile layout "source.json")
    (sourceJson json.escape source layout.identity)
  refine Persisted.andThen_ended (P := Manifested) done fun _ done => ?_
  exact FileEnv.read_write origin.mounted ((orEnd_done (by decide)).mp done)

end Persisted

end ReqPack.Rqp
