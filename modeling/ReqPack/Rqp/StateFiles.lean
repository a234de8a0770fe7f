import ReqPack.Data.FileRemoval
import ReqPack.Rqp.Artifacts
import ReqPack.Rqp.StateRoot

/-! # The store of states on disk

`RqpStateStore`: the directories below the state root are read, listed and removed.
-/

namespace ReqPack.Rqp

open ReqPack.Data
open ReqPack.Data.Ascii
open ReqPack.Data.FileSystem

/-! ## Directories under text paths -/

namespace FileEnv

variable (env : FileEnv)

/-- `is_directory`. -/
def isDirectoryAt (nodes : Nodes Bytes Bytes) (path : Bytes) : Bool :=
  match env.resolve true nodes path with
  | .found location => isDirectory nodes location
  | _ => false

/-- `directory_iterator`, which is at its end where no directory is. -/
def names (nodes : Nodes Bytes Bytes) (path : Bytes) : List Bytes :=
  match env.resolve true nodes path with
  | .found location => if isDirectory nodes location then env.listing nodes location else []
  | _ => []

/-- `remove_all`: nothing is removed where nothing is. -/
def removeAll (stuck : List (Location Bytes)) (path : Bytes) (disk : PayloadDisk) : Outcome Bytes Bytes :=
  match env.resolve false disk.nodes path with
  | .found location => removeTree stuck location disk
  | _ => (disk, true)

/-- `is_empty`, of a directory or a file. -/
def isEmpty (nodes : Nodes Bytes Bytes) (path : Bytes) : Option Bool :=
  match env.resolve true nodes path with
  | .found location =>
      match nodes location with
      | some .directory => some (env.listing nodes location).isEmpty
      | some (.file content) => some content.isEmpty
      | _ => none
  | _ => none

/-- `remove`: a directory has to be empty. -/
def remove (stuck : List (Location Bytes)) (path : Bytes) (disk : PayloadDisk) : Outcome Bytes Bytes :=
  match env.resolve false disk.nodes path with
  | .found location =>
      removeNode (stuck.contains location)
        (isDirectory disk.nodes location && !(env.listing disk.nodes location).isEmpty) location disk
  | _ => (disk, true)

end FileEnv

/-! ## The store -/

/-- The reader of JSON texts and that of `reqpack.lua`, an exception aside. -/
structure StateReader where
  json : JsonText
  parseHooks : Bytes → Except Bytes (List (Bytes × Bytes))

/-- `RqpInstalledPackage` with the fields that are loaded; the paths of its files are those of the names below the
directory. -/
structure LoadedState where
  metadata : RqMetadata
  source : RqStateSource
  sourceIdentity : Bytes
  hooks : List (Bytes × Bytes)
  identity : Bytes
  stateDir : Bytes
deriving DecidableEq

/-- What the search in the store looks at. -/
def LoadedState.package (installed : LoadedState) : RqpInstalledPackage := ⟨installed.metadata.packageId, installed.source⟩

namespace RqpStateStore

/-- `storage::json_codec::required_string`. -/
def requiredString (tree : Ptree) (key : String) : Except Bytes Bytes :=
  match tree.text key with
  | some value => if value.isEmpty then .error (bytes "json field missing string value: " ++ bytes key) else .ok value
  | none => .error (bytes "json field missing string value: " ++ bytes key)

def parseSourceTree (tree : Ptree) : Except Bytes (RqStateSource × Bytes) := do
  let source ← requiredString tree "source"
  let path ← requiredString tree "path"
  let identity ← requiredString tree "identity"
  return (⟨source, path, (tree.text "repository").getD [], (tree.text "requestName").getD []⟩, identity)

def parseSourceJson (readTree : Bytes → Option Ptree) (content : Bytes) : Except Bytes (RqStateSource × Bytes) :=
  match readTree content with
  | none => .error (bytes "invalid source.json")
  | some tree => parseSourceTree tree

section Listing

variable (env : FileEnv) (reader : StateReader) (nodes : Nodes Bytes Bytes)

/-- The part of `loadInstalled` behind the contents of the files. -/
def parseState (stateDir metadata source hooks : Bytes) : Except Bytes LoadedState := do
  let metadata ← rqParseMetadataJson reader.json.readTree metadata
  let (source, sourceIdentity) ← parseSourceJson reader.json.readTree source
  let hooks ← reader.parseHooks hooks
  return { metadata, source, sourceIdentity, hooks, identity := rqPackageIdentity metadata.packageId, stateDir }

/-- All of the files have to be there. -/
def loadFiles (stateDir : Bytes) (metadata hooks source manifest : Option Bytes) : Except Bytes (Option LoadedState) :=
  match metadata, hooks, source, manifest with
  | some metadata, some hooks, some source, some _ => (parseState reader stateDir metadata source hooks).map some
  | _, _, _, _ => .ok none

def loadInstalled (stateDir : Bytes) : Except Bytes (Option LoadedState) :=
  loadFiles reader stateDir (env.read nodes (joinPath stateDir (bytes "metadata.json")))
    (env.read nodes (joinPath stateDir (bytes "reqpack.lua"))) (env.read nodes (joinPath stateDir (bytes "source.json")))
    (env.read nodes (joinPath stateDir (bytes "manifest.json")))

/-- The directories two levels below the root. -/
def stateDirectories (root : Bytes) : List Bytes :=
  ((((env.names nodes root).map (joinPath root)).filter (env.isDirectoryAt nodes)).flatMap fun packageDir =>
    (env.names nodes packageDir).map (joinPath packageDir)).filter (env.isDirectoryAt nodes)

/-- The order in which they are listed. -/
def loadedBefore (left right : LoadedState) : Bool := listedBefore left.package right.package

def listInstalled (root : Bytes) : Except Bytes (List LoadedState) :=
  if env.isDirectoryAt nodes root then
    ((stateDirectories env nodes root).mapM (loadInstalled env reader nodes)).map fun loaded =>
      (loaded.filterMap id).insertionSort fun left right => loadedBefore left right = true
  else .ok []

end Listing

section Removing

variable (env : FileEnv)

/-- The directory is removed with all that is in it, and the one above it if that is empty then. -/
def removeInstalledState (stuck : List (Location Bytes)) (installed : LoadedState) (disk : PayloadDisk) :
    Outcome Bytes Bytes :=
  (env.removeAll stuck installed.stateDir disk).andThen fun disk =>
    let packageRoot := Artifacts.parentPath installed.stateDir
    if packageRoot.isEmpty then (disk, true)
    else
      match env.isEmpty disk.nodes packageRoot with
      | none => (disk, false)
      | some false => (disk, true)
      | some true => env.remove stuck packageRoot disk

end Removing

end RqpStateStore

/-! ## What a removal leaves -/

/-- The operating system lists each name in a directory once. -/
def FileEnv.Lists (env : FileEnv) (nodes : Nodes Bytes Bytes) : Prop :=
  ∀ location, nodes location = some .directory →
    (env.listing nodes location).Nodup ∧ ∀ name, name ∈ env.listing nodes location ↔ ∃ node, nodes (name :: location) = some node

/-- A removal takes the state directory, if it can, and nothing but the directory above it besides. -/
structure RemoveEffect (top packageRoot home : Location Bytes) (disk : PayloadDisk) (outcome : Outcome Bytes Bytes) : Prop where
  rooted : Rooted outcome.1.nodes
  changes : ChangesBelow top disk outcome.1
  beside : ∀ location, ¬ home <:+ location → location ≠ packageRoot → outcome.1.nodes location = disk.nodes location
  taken : ∀ location, outcome.1.nodes location = disk.nodes location ∨ outcome.1.nodes location = none
  gone : outcome.2 = true → ∀ location, home <:+ location → outcome.1.nodes location = none

section Removal

variable {env : FileEnv} {root path : Bytes} {top : Location Bytes} {disk : PayloadDisk} {nodes : Nodes Bytes Bytes}
variable {stuck : List (Location Bytes)} {first second name : Bytes} {names : List Bytes}

theorem parentPath_joinPath (plain : isDirectoryName name = true) (filled : path ≠ []) (closed : path.getLast? ≠ some slash) :
    Artifacts.parentPath (joinPath path name) = path := by
  obtain ⟨-, unbroken, -⟩ := isDirectoryName_iff.1 plain
  have joined : joinPath path name = path ++ slash :: name := by
    rw [joinPath, if_neg (by simpa using relative_of_name plain), if_neg]
    rw [Bool.or_eq_true, List.isEmpty_iff, beq_iff_eq, not_or]
    exact ⟨filled, closed⟩
  have front : (path ++ slash :: name).reverse.dropWhile (· != slash) = slash :: path.reverse := by
    rw [List.reverse_append, List.reverse_cons, List.append_assoc, List.singleton_append,
      List.dropWhile_append_of_pos (by simpa using all_ne unbroken), List.dropWhile_cons_of_neg (by simp)]
  have parent : (slash :: path.reverse).dropWhile (· == slash) = path.reverse := by
    obtain ⟨front, last, rfl⟩ := (List.eq_nil_or_concat path).resolve_left filled
    have other : last ≠ slash := by simpa using closed
    rw [List.dropWhile_cons_of_pos (by simp), List.concat_eq_append, List.reverse_concat, List.dropWhile_cons_of_neg (by simpa using other)]
  rw [joined, Artifacts.parentPath, front, parent, List.reverse_reverse]
  simp [filled]

theorem removeAll_spelled (enclosure : Enclosure env root top disk.nodes) (spells : Spells root names path) (named : names ≠ []) :
    RemoveEffect top (placeOf top names) (placeOf top names) disk (env.removeAll stuck path disk) := by
  have below : StrictlyBelow top (placeOf top names) := strictlyBelow_append _ (by simpa using named) top
  have kept : (∀ place, env.resolve false disk.nodes path ≠ .found place) →
      RemoveEffect top (placeOf top names) (placeOf top names) disk (disk, true) := by
    intro absent
    have none : disk.nodes (placeOf top names) = none := by
      by_contra present
      obtain ⟨node, there⟩ := Option.ne_none_iff_exists'.1 present
      exact absent _ ((resolve_found_iff enclosure spells named).2 ⟨rfl, node, there⟩)
    refine ⟨enclosure.rooted, ChangesBelow.refl top disk, fun _ _ _ => rfl, fun _ => Or.inl rfl, fun _ location inside => ?_⟩
    obtain ⟨front, rfl⟩ := inside
    by_contra present
    obtain ⟨node, there⟩ := Option.ne_none_iff_exists'.1 present
    by_cases last : front = []
    · rw [last, List.nil_append, none] at there
      cases there
    · rw [enclosure.rooted.above last there] at none
      cases none
  rw [FileEnv.removeAll]
  split
  · rename_i place found
    obtain ⟨rfl, -⟩ := (resolve_found_iff enclosure spells named).1 found
    exact ⟨removeTree_rooted below enclosure.rooted, removeTree_changesBelow below, fun location apart _ => removeTree_apart apart,
      removeTree_taken, fun removed location inside => removeTree_gone removed inside⟩
  · rename_i absent
    exact kept absent

theorem remove_spelled (enclosure : Enclosure env root top disk.nodes) (lists : env.Lists disk.nodes) (spells : Spells root names path)
    (named : names ≠ []) :
    Rooted (env.remove stuck path disk).1.nodes ∧ ChangesBelow top disk (env.remove stuck path disk).1 ∧
      ∀ location, (env.remove stuck path disk).1.nodes location = disk.nodes location ∨
        (location = placeOf top names ∧ (env.remove stuck path disk).1.nodes location = none) := by
  have below : StrictlyBelow top (placeOf top names) := strictlyBelow_append _ (by simpa using named) top
  rw [FileEnv.remove]
  split
  · rename_i place found
    obtain ⟨rfl, -⟩ := (resolve_found_iff enclosure spells named).1 found
    refine ⟨removeNode_rooted below enclosure.rooted fun bare value => ?_, removeNode_changesBelow below, fun location => ?_⟩
    · by_contra present
      obtain ⟨node, there⟩ := Option.ne_none_iff_exists'.1 present
      have directory := enclosure.rooted.parent value _ node there
      have listed := ((lists _ directory).2 value).2 ⟨node, there⟩
      rw [isDirectory_iff.2 directory, Bool.true_and, Bool.not_eq_false', List.isEmpty_iff] at bare
      rw [bare] at listed
      cases listed
    · obtain same | ⟨here, -, -, gone⟩ := @removeNode_taken _ _ _ (placeOf top names) disk (stuck.contains (placeOf top names))
        (isDirectory disk.nodes (placeOf top names) && !(env.listing disk.nodes (placeOf top names)).isEmpty) location
      · exact Or.inl same
      · exact Or.inr ⟨here, gone⟩
  · exact ⟨enclosure.rooted, ChangesBelow.refl top disk, fun _ => Or.inl rfl⟩

theorem removeInstalledState_effect (enclosure : Enclosure env root top disk.nodes) (firstName : FileName first)
    (secondName : FileName second) {installed : LoadedState} (place : installed.stateDir = joinPath (joinPath root first) second)
    (lists : env.Lists (env.removeAll stuck installed.stateDir disk).1.nodes) :
    RemoveEffect top (first :: top) (second :: first :: top) disk
      (RqpStateStore.removeInstalledState env stuck installed disk) := by
  have above := spells_joinPath enclosure.whole firstName
  have spells := above.join secondName
  rw [place] at lists
  have removed := @removeAll_spelled env root _ top disk stuck _ enclosure spells (by simp)
  have same : placeOf top ([first] ++ [second]) = second :: first :: top := rfl
  rw [same] at removed
  have after := enclosure.changed removed.rooted removed.changes
  have whole : ∀ answer, (answer = true → (env.removeAll stuck (joinPath (joinPath root first) second) disk).2 = true) →
      RemoveEffect top (first :: top) (second :: first :: top) disk
        ((env.removeAll stuck (joinPath (joinPath root first) second) disk).1, answer) := by
    intro answer done
    exact ⟨removed.rooted, removed.changes, fun location apart _ => removed.beside location apart fun here =>
      apart (here ▸ List.suffix_refl _), removed.taken, fun answered => removed.gone (done answered)⟩
  have parent : Artifacts.parentPath (joinPath (joinPath root first) second) = joinPath root first :=
    parentPath_joinPath secondName.plain (above.filled (by simp)) above.closed
  have open_ : (joinPath root first).isEmpty = false := List.isEmpty_eq_false_iff.2 (above.filled (by simp))
  rw [RqpStateStore.removeInstalledState, place, Outcome.andThen]
  cases done : (env.removeAll stuck (joinPath (joinPath root first) second) disk).2 with
  | false =>
      simp only [Bool.false_eq_true, if_false]
      exact ⟨removed.rooted, removed.changes, fun location apart _ => removed.beside location apart fun here =>
        apart (here ▸ List.suffix_refl _), removed.taken, removed.gone⟩
  | true =>
      simp only [if_true, parent, open_, Bool.false_eq_true, if_false]
      split
      · exact whole false (by simp)
      · exact whole true fun _ => done
      · obtain ⟨rooted, changes, last⟩ := @remove_spelled env root _ top _ stuck _ after lists above (by simp)
        refine ⟨rooted, removed.changes.trans changes, fun location apart other => ?_, fun location => ?_,
          fun _ location inside => ?_⟩
        · obtain same | ⟨here, -⟩ := last location
          · exact same.trans (removed.beside location apart fun here => apart (here ▸ List.suffix_refl _))
          · exact absurd here other
        · obtain same | ⟨-, gone⟩ := last location
          · rw [same]
            exact removed.taken location
          · exact Or.inr gone
        · obtain same | ⟨-, gone⟩ := last location
          · rw [same]
            exact removed.gone done location inside
          · exact gone

end Removal

end ReqPack.Rqp
