import Mathlib.Data.List.Dedup
import Mathlib.Data.List.Sort
import ReqPack.Registry.Json
import ReqPack.Registry.Sync

/-! # The main registry

`sync_main_registry` brings the store to the commit a git repository stands at: by all
its registry files, or by those that changed since the commit the store was brought to
before.  What git prints and the files of a commit are given.
-/

namespace ReqPack.Registry

open ReqPack.Data ReqPack.Core
open ReqPack.Planner (trimCopy toLowerCopy)

section Diff

structure RegistryDiffEntry where
  status : Char
  path : Path
deriving Repr, DecidableEq

/-- The words of a line, as `>>` reads them. -/
def lineWords (line : String) : List String :=
  ((line.toList.splitOnP isSpace).filter fun word => !word.isEmpty).map String.ofList

/-- The entries of one line; a line without a path is an error. -/
def diffLineEntries (line : String) : Option (List RegistryDiffEntry) :=
  if (trimCopy line).isEmpty then some []
  else
    match lineWords (trimCopy line) with
    | [] => none
    | status :: rest =>
        let letter := status.toList.headD '?'
        if letter = 'R' ∨ letter = 'C' then
          match rest with
          | oldPath :: newPath :: _ => some [⟨letter, Path.ofText oldPath⟩, ⟨'A', Path.ofText newPath⟩]
          | _ => none
        else
          match rest with
          | path :: _ => some [⟨letter, Path.ofText path⟩]
          | [] => none

/-- `git_registry_diff` on what `git diff --name-status` printed. -/
def gitRegistryDiff (output : String) : Option (List RegistryDiffEntry) :=
  (((output.toList.splitOn '\n').map String.ofList).mapM diffLineEntries).map List.flatten

end Diff

section Files

/-- A file of a commit by its path in the repository; the content is absent when it is
no JSON. -/
structure TreeFile where
  path : Path
  content : Option RegistryJson
deriving Repr, DecidableEq

/-- The files of a commit. -/
structure RegistryTree where
  files : List TreeFile
  named : ∀ file ∈ files, file.path ≠ [] ∧ ∀ part ∈ file.path, Path.Plain part
  distinct : (files.map TreeFile.path).Nodup

def RegistryTree.find (tree : RegistryTree) (path : Path) : Option TreeFile :=
  tree.files.find? fun file => file.path == path

/-- Where the repository lies and where its registry files are: `pluginsPath` is spelled as
it is configured, `inner` is the directory it leads to inside the repository. -/
structure RegistryLocation where
  repository : Path
  pluginsPath : Path
  inner : Path
  plain : ∀ part ∈ inner, Path.Plain part
  within : Path.lexicallyNormal (Path.append repository pluginsPath).directory =
    Path.lexicallyNormal repository.directory ++ inner

namespace RegistryLocation

variable (location : RegistryLocation)

def pluginsRoot : Path := Path.append location.repository location.pluginsPath

/-- A path of the repository below the plugins root. -/
def holds (path : Path) : Bool := location.inner.isPrefixOf path && location.inner.length < path.length

/-- The path to a file below the plugins root, as a walk through it spells it. -/
def walkedPath (relative : Path) : Path := location.pluginsRoot.directory ++ relative

/-- The path to a file of the repository in normal form. -/
def normalPath (path : Path) : Path := Path.lexicallyNormal (location.repository.directory ++ path)

/-- The plugins root is written in normal form. -/
def Spelled : Prop := Path.lexicallyNormal location.pluginsRoot.directory = location.pluginsRoot.directory

instance : Decidable location.Spelled := inferInstanceAs (Decidable (_ = _))

end RegistryLocation

/-- `collect_registry_json_files`, in the order of their paths. -/
def collectRegistryJsonFiles (location : RegistryLocation) (tree : RegistryTree) :
    List (Path × Option RegistryJson) :=
  (tree.files.filterMap fun file =>
    if location.holds file.path && hasJsonExtension file.path then
      some (location.walkedPath (file.path.drop location.inner.length), file.content)
    else none).insertionSort fun left right => left.1 ≤ right.1

/-- The records of a list of files, or an exception when one of them is malformed. -/
def parseFiles (files : List (Path × Option RegistryJson)) : Option (List RegistryRecord) :=
  (files.mapM fun file => parseRegistryJsonFile file.1 file.2).map List.flatten

def registryRecords (location : RegistryLocation) (tree : RegistryTree) : Option (List RegistryRecord) :=
  parseFiles (collectRegistryJsonFiles location tree)

/-- The paths whose records the difference deletes. -/
def originPathsToDelete (location : RegistryLocation) (entries : List RegistryDiffEntry) : List Path :=
  (entries.filter fun entry => hasJsonExtension entry.path).map fun entry => location.normalPath entry.path

/-- The files the difference reads, in the order of their paths as texts. -/
def filesToParse (location : RegistryLocation) (tree : RegistryTree) (entries : List RegistryDiffEntry) :
    List (Path × Option RegistryJson) :=
  ((entries.filterMap fun entry =>
    if hasJsonExtension entry.path && entry.status != 'D' && entry.status != 'R' then
      (tree.find entry.path).map fun file => (location.normalPath entry.path, file.content)
    else none).dedup).insertionSort fun left right => Path.text left.1 ≤ Path.text right.1

def changedRecords (location : RegistryLocation) (tree : RegistryTree) (entries : List RegistryDiffEntry) :
    Option (List RegistryRecord) :=
  parseFiles (filesToParse location tree entries)

end Files

section Branches

variable (env : RegistryEnv) (location : RegistryLocation)

/-- The full branch of `sync_main_registry`. -/
def syncFull (tree : RegistryTree) (store : RegistryStore) : RegistryStore :=
  match registryRecords location tree with
  | none => store
  | some records => syncRecords env false true true [] records store

/-- The branch of `sync_main_registry` for a difference between two commits. -/
def syncDiff (tree : RegistryTree) (entries : List RegistryDiffEntry) (store : RegistryStore) : RegistryStore :=
  match changedRecords location tree entries with
  | none => store
  | some records => syncRecords env false false true (originPathsToDelete location entries) records store

/-- What `sync_main_registry` does with the output of git for another commit. -/
def syncChanged (tree : RegistryTree) (output : String) (store : RegistryStore) : RegistryStore :=
  match gitRegistryDiff output with
  | none => syncFull env location tree store
  | some entries => syncDiff env location tree entries store

end Branches

/-! ## Paths and files -/

namespace RegistryLocation

variable {location : RegistryLocation}

theorem holds_iff {path : Path} : location.holds path = true ↔ ∃ relative, relative ≠ [] ∧ path = location.inner ++ relative := by
  simp only [holds, Bool.and_eq_true, List.isPrefixOf_iff_prefix, decide_eq_true_eq]
  apply Iff.intro
  · intro found
    obtain ⟨⟨relative, rfl⟩, longer⟩ := found
    refine ⟨relative, ?_, rfl⟩
    rintro rfl
    simp at longer
  · intro found
    obtain ⟨relative, named, rfl⟩ := found
    refine ⟨⟨relative, rfl⟩, ?_⟩
    have long := List.length_pos_of_ne_nil named
    simp only [List.length_append]
    omega

theorem normalPath_inner {relative : Path} (plain : ∀ part ∈ relative, Path.Plain part) :
    location.normalPath (location.inner ++ relative) =
      Path.lexicallyNormal location.pluginsRoot.directory ++ relative := by
  have below : ∀ part ∈ location.inner ++ relative, Path.Plain part := by
    intro part member
    rcases List.mem_append.mp member with inside | outside
    · exact location.plain part inside
    · exact plain part outside
  rw [normalPath, Path.lexicallyNormal_append below, pluginsRoot, location.within, List.append_assoc]

/-- A walked path is a normal one only when the plugins root is spelled in normal form, and
both lead to the same file. -/
theorem walkedPath_eq_normalPath {relative other : Path} (plain : ∀ part ∈ relative, Path.Plain part)
    (otherPlain : ∀ part ∈ other, Path.Plain part) :
    location.walkedPath relative = location.normalPath (location.inner ++ other) ↔
      location.Spelled ∧ relative = other := by
  rw [normalPath_inner otherPlain, walkedPath]
  apply Iff.intro
  · exact Path.append_eq_normal plain otherPlain
  · intro spelled
    rw [spelled.1, spelled.2]

theorem walkedPath_inj {relative other : Path}
    (same : location.walkedPath relative = location.walkedPath other) : relative = other :=
  List.append_cancel_left same

end RegistryLocation

namespace RegistryTree

variable {tree : RegistryTree}

theorem find_eq_some {path : Path} {file : TreeFile} :
    tree.find path = some file ↔ file ∈ tree.files ∧ file.path = path := by
  apply Iff.intro
  · intro found
    exact ⟨List.mem_of_find?_eq_some found, by simpa using List.find?_some found⟩
  · intro found
    obtain ⟨member, rfl⟩ := found
    cases first : tree.find file.path with
    | none =>
        have apart := List.find?_eq_none.mp first file member
        simp at apart
    | some other =>
        have same : other.path = file.path := by simpa using List.find?_some first
        rw [List.inj_on_of_nodup_map tree.distinct (List.mem_of_find?_eq_some first) member same]

end RegistryTree

section Collected

variable {location : RegistryLocation} {tree : RegistryTree} {entries : List RegistryDiffEntry}

theorem mem_collectRegistryJsonFiles {found : Path × Option RegistryJson} :
    found ∈ collectRegistryJsonFiles location tree ↔
      ∃ file ∈ tree.files, ∃ relative, relative ≠ [] ∧ file.path = location.inner ++ relative ∧
        hasJsonExtension file.path = true ∧ found = (location.walkedPath relative, file.content) := by
  simp only [collectRegistryJsonFiles, List.mem_insertionSort, List.mem_filterMap,
    Option.ite_none_right_eq_some, Bool.and_eq_true, Option.some.injEq, RegistryLocation.holds_iff]
  apply Iff.intro
  · intro given
    obtain ⟨file, member, ⟨⟨relative, named, same⟩, json⟩, rfl⟩ := given
    refine ⟨file, member, relative, named, same, json, ?_⟩
    rw [same, List.drop_left]
  · intro given
    obtain ⟨file, member, relative, named, same, json, rfl⟩ := given
    refine ⟨file, member, ⟨⟨relative, named, same⟩, json⟩, ?_⟩
    rw [same, List.drop_left]

theorem mem_filesToParse {found : Path × Option RegistryJson} :
    found ∈ filesToParse location tree entries ↔
      ∃ entry ∈ entries, hasJsonExtension entry.path = true ∧ entry.status ≠ 'D' ∧ entry.status ≠ 'R' ∧
        ∃ file ∈ tree.files, file.path = entry.path ∧
          found = (location.normalPath entry.path, file.content) := by
  simp only [filesToParse, List.mem_insertionSort, List.mem_dedup, List.mem_filterMap,
    Option.ite_none_right_eq_some, Bool.and_eq_true, bne_iff_ne, ne_eq, Option.map_eq_some_iff,
    RegistryTree.find_eq_some]
  apply Iff.intro
  · intro given
    obtain ⟨entry, member, ⟨⟨json, notD⟩, notR⟩, file, ⟨listed, same⟩, rfl⟩ := given
    exact ⟨entry, member, json, notD, notR, file, listed, same, rfl⟩
  · intro given
    obtain ⟨entry, member, json, notD, notR, file, listed, same, rfl⟩ := given
    exact ⟨entry, member, ⟨⟨json, notD⟩, notR⟩, file, ⟨listed, same⟩, rfl⟩

theorem mem_originPathsToDelete {path : Path} :
    path ∈ originPathsToDelete location entries ↔
      ∃ entry ∈ entries, hasJsonExtension entry.path = true ∧ path = location.normalPath entry.path := by
  simp only [originPathsToDelete, List.mem_map, List.mem_filter]
  apply Iff.intro
  · intro given
    obtain ⟨entry, ⟨member, json⟩, rfl⟩ := given
    exact ⟨entry, member, json, rfl⟩
  · intro given
    obtain ⟨entry, member, json, rfl⟩ := given
    exact ⟨entry, ⟨member, json⟩, rfl⟩

end Collected

/-! ## The records of files -/

section Parsed

theorem parseFiles_cons {file : Path × Option RegistryJson} {files : List (Path × Option RegistryJson)} :
    parseFiles (file :: files) =
      (parseRegistryJsonFile file.1 file.2).bind fun own => (parseFiles files).map fun rest => own ++ rest := by
  simp only [parseFiles, List.mapM_cons, Option.bind_eq_bind, Option.pure_def]
  cases parseRegistryJsonFile file.1 file.2 with
  | none => rfl
  | some own =>
      cases files.mapM fun file => parseRegistryJsonFile file.1 file.2 with
      | none => rfl
      | some rest => simp

theorem parseFiles_isSome {files : List (Path × Option RegistryJson)} :
    (parseFiles files).isSome = true ↔
      ∀ file ∈ files, (parseRegistryJsonFile file.1 file.2).isSome = true := by
  induction files with
  | nil => simp [parseFiles]
  | cons file files ih =>
      rw [parseFiles_cons, List.forall_mem_cons, ← ih]
      cases parseRegistryJsonFile file.1 file.2 with
      | none => simp
      | some own =>
          cases parseFiles files with
          | none => simp
          | some rest => simp

theorem parseFiles_declares {files : List (Path × Option RegistryJson)} {records : List RegistryRecord}
    (parsed : parseFiles files = some records) : ∀ record ∈ records, ∃ path, Declares path record := by
  obtain ⟨lists, mapped, rfl⟩ := Option.map_eq_some_iff.mp parsed
  intro record member
  obtain ⟨own, listed, inOwn⟩ := List.mem_flatten.mp member
  obtain ⟨file, _, given⟩ := exists_of_mem_mapM mapped listed
  exact ⟨file.1, parseRegistryJsonFile_declares given record inOwn⟩

theorem lastNamed_append {first second : List RegistryRecord} {name : String} :
    lastNamed (first ++ second) name = (lastNamed second name).or (lastNamed first name) := by
  simp [lastNamed, List.find?_append]

/-- The last record of a name is the last one in one of the files. -/
theorem lastNamed_parseFiles {files : List (Path × Option RegistryJson)} {records : List RegistryRecord}
    (parsed : parseFiles files = some records) {name : String} {record : RegistryRecord}
    (last : lastNamed records name = some record) :
    ∃ file ∈ files, ∃ own, parseRegistryJsonFile file.1 file.2 = some own ∧
      lastNamed own name = some record := by
  induction files generalizing records with
  | nil =>
      cases parsed
      cases last
  | cons file files ih =>
      rw [parseFiles_cons] at parsed
      obtain ⟨own, first, mapped⟩ := Option.bind_eq_some_iff.mp parsed
      obtain ⟨rest, others, rfl⟩ := Option.map_eq_some_iff.mp mapped
      rw [lastNamed_append] at last
      cases later : lastNamed rest name with
      | some other =>
          rw [later] at last
          cases last
          obtain ⟨found, member, given⟩ := ih others later
          exact ⟨found, List.mem_cons_of_mem _ member, given⟩
      | none =>
          rw [later] at last
          exact ⟨file, List.mem_cons_self, own, first, last⟩

/-- A name that a file declares has a last record. -/
theorem lastNamed_isSome {files : List (Path × Option RegistryJson)} {records : List RegistryRecord}
    (parsed : parseFiles files = some records) {file : Path × Option RegistryJson} (member : file ∈ files)
    {own : List RegistryRecord} (read : parseRegistryJsonFile file.1 file.2 = some own) {name : String}
    (declared : (lastNamed own name).isSome = true) : (lastNamed records name).isSome = true := by
  induction files generalizing records with
  | nil => cases member
  | cons head files ih =>
      rw [parseFiles_cons] at parsed
      obtain ⟨first, given, mapped⟩ := Option.bind_eq_some_iff.mp parsed
      obtain ⟨rest, others, rfl⟩ := Option.map_eq_some_iff.mp mapped
      rw [lastNamed_append, Option.isSome_or, Bool.or_eq_true]
      rcases List.mem_cons.mp member with rfl | later
      · rw [read] at given
        cases given
        exact Or.inr declared
      · exact Or.inl (ih others later)

theorem lastNamed_moved {path : Path} {records : List RegistryRecord} {name : String} :
    lastNamed (records.map (movedTo path)) name = (lastNamed records name).map (movedTo path) := by
  simp only [lastNamed, ← List.map_reverse, List.find?_map]
  rfl

end Parsed

end ReqPack.Registry
