import ReqPack.Rqp.MetadataRoundTrip
import ReqPack.Rqp.StatePersisting

/-! # What is listed

The listing of a state root on disk, against the abstract store: a directory holds the state of
the package it is named for.
-/

namespace ReqPack.Rqp

open ReqPack.Data
open ReqPack.Data.Ascii
open ReqPack.Data.FileSystem

/-- The path of a state directory. -/
def statePath (root : Bytes) (directory : Bytes × Bytes) : Bytes := joinPath (joinPath root directory.1) directory.2

/-- Its place. -/
def stateHome (top : Location Bytes) (directory : Bytes × Bytes) : Location Bytes := directory.2 :: directory.1 :: top

def fileAt (nodes : Nodes Bytes Bytes) (location : Location Bytes) : Option Bytes :=
  match nodes location with
  | some (.file content) => some content
  | _ => none

structure DirectoryNames (directory : Bytes × Bytes) : Prop where
  first : FileName directory.1
  second : FileName directory.2

/-- The files of a state directory can be read, and belong to the package it is named for. -/
structure SoundFiles (reader : StateReader) (nodes : Nodes Bytes Bytes) (home : Location Bytes) (directory : Bytes × Bytes) : Prop where
  metadata : ∀ content, nodes (bytes "metadata.json" :: home) = some (.file content) →
    ∃ metadata, rqParseMetadataJson reader.json.readTree content = .ok metadata ∧ stateDir metadata.packageId = directory
  hooks : ∀ content, nodes (bytes "reqpack.lua" :: home) = some (.file content) →
    ∃ hooks, reader.parseHooks content = .ok hooks
  source : ∀ content, nodes (bytes "source.json" :: home) = some (.file content) →
    ∃ source, RqpStateStore.parseSourceJson reader.json.readTree content = .ok source

section Loading

variable {env : FileEnv} {reader : StateReader} {root : Bytes} {top home : Location Bytes} {nodes other : Nodes Bytes Bytes}
variable {directory : Bytes × Bytes} {content : Bytes}

theorem fileAt_eq_some {location : Location Bytes} : fileAt nodes location = some content ↔ nodes location = some (.file content) := by
  rw [fileAt]
  split
  · rename_i inside found
    rw [found, Option.some.injEq, Option.some.injEq, Node.file.injEq]
  · rename_i plain
    apply Iff.intro
    · intro found
      cases found
    · intro found
      exact absurd found (plain content)

theorem fileAt_congr {location : Location Bytes}
    (same : ∀ content, nodes location = some (.file content) ↔ other location = some (.file content)) :
    fileAt nodes location = fileAt other location := by
  ext content
  rw [fileAt_eq_some, fileAt_eq_some, same]

theorem statePath_spells (whole : 0 ∉ root) (names : DirectoryNames directory) :
    Spells root [directory.1, directory.2] (statePath root directory) :=
  (spells_joinPath whole names.first).join names.second

theorem read_stateFile (enclosure : Enclosure env root top nodes) (names : DirectoryNames directory) {name : Bytes}
    (fileName : FileName name) :
    env.read nodes (joinPath (statePath root directory) name) = fileAt nodes (name :: stateHome top directory) := by
  ext content
  rw [fileAt_eq_some]
  exact read_spelled enclosure ((statePath_spells enclosure.whole names).join fileName) (by simp)

theorem loadInstalled_eq (enclosure : Enclosure env root top nodes) (names : DirectoryNames directory) :
    RqpStateStore.loadInstalled env reader nodes (statePath root directory) =
      RqpStateStore.loadFiles reader (statePath root directory) (fileAt nodes (bytes "metadata.json" :: stateHome top directory))
        (fileAt nodes (bytes "reqpack.lua" :: stateHome top directory))
        (fileAt nodes (bytes "source.json" :: stateHome top directory))
        (fileAt nodes (bytes "manifest.json" :: stateHome top directory)) := by
  rw [RqpStateStore.loadInstalled,
    read_stateFile enclosure names (fileName_of_text (by decide) (by decide) : FileName (bytes "metadata.json")),
    read_stateFile enclosure names (fileName_of_text (by decide) (by decide) : FileName (bytes "reqpack.lua")),
    read_stateFile enclosure names (fileName_of_text (by decide) (by decide) : FileName (bytes "source.json")),
    read_stateFile enclosure names (fileName_of_text (by decide) (by decide) : FileName (bytes "manifest.json"))]

theorem loadInstalled_congr (enclosure : Enclosure env root top nodes) (later : Enclosure env root top other)
    (names : DirectoryNames directory)
    (same : ∀ name content, nodes (name :: stateHome top directory) = some (.file content) ↔
      other (name :: stateHome top directory) = some (.file content)) :
    RqpStateStore.loadInstalled env reader other (statePath root directory) =
      RqpStateStore.loadInstalled env reader nodes (statePath root directory) := by
  rw [loadInstalled_eq enclosure names, loadInstalled_eq later names, fileAt_congr (same _), fileAt_congr (same _),
    fileAt_congr (same _), fileAt_congr (same _)]

/-- A state in its directory. -/
structure InPlace (root : Bytes) (directory : Bytes × Bytes) (installed : LoadedState) : Prop where
  named : stateDir installed.package.metadata = directory
  path : installed.stateDir = statePath root directory

theorem loadInstalled_sound (enclosure : Enclosure env root top nodes) (names : DirectoryNames directory)
    (sound : SoundFiles reader nodes (stateHome top directory) directory) :
    ∃ entry, RqpStateStore.loadInstalled env reader nodes (statePath root directory) = .ok entry ∧
      ∀ installed ∈ entry, InPlace root directory installed := by
  rw [loadInstalled_eq enclosure names]
  unfold RqpStateStore.loadFiles
  split
  · rename_i metadataText hooksText sourceText manifestText metadataFile hooksFile sourceFile manifestFile
    obtain ⟨metadata, parsed, named⟩ := sound.metadata _ (fileAt_eq_some.1 metadataFile)
    obtain ⟨hooks, hooked⟩ := sound.hooks _ (fileAt_eq_some.1 hooksFile)
    obtain ⟨source, origin⟩ := sound.source _ (fileAt_eq_some.1 sourceFile)
    refine ⟨some ⟨metadata, source.1, source.2, hooks, rqPackageIdentity metadata.packageId, statePath root directory⟩, ?_, ?_⟩
    · rw [RqpStateStore.parseState, parsed, origin, hooked]
      rfl
    · intro installed member
      cases Option.mem_some.1 member
      exact ⟨named, rfl⟩
  · exact ⟨none, rfl, fun installed none => by cases none⟩

end Loading

/-! ## The listing of a sound root -/

/-- The state root holds what the abstract store says. -/
structure Represents (env : FileEnv) (reader : StateReader) (root : Bytes) (top : Location Bytes) (nodes : Nodes Bytes Bytes)
    (state : RqpState) : Prop where
  enclosure : Enclosure env root top nodes
  lists : env.Lists nodes
  sound : ∀ directory, DirectoryNames directory → SoundFiles reader nodes (stateHome top directory) directory
  plain : ∀ package ∈ state.installed, DirectoryNames (stateDir package.metadata)
  installed : ∀ directory, DirectoryNames directory → ∀ package,
    package ∈ state.installed ∧ stateDir package.metadata = directory ↔
      ∃ installed, RqpStateStore.loadInstalled env reader nodes (statePath root directory) = .ok (some installed) ∧
        installed.package = package

/-- The directories two levels below the root, by their names. -/
def stateNames (env : FileEnv) (nodes : Nodes Bytes Bytes) (top : Location Bytes) : List (Bytes × Bytes) :=
  ((env.listing nodes top).filter fun first => isDirectory nodes (first :: top)).flatMap fun first =>
    ((env.listing nodes (first :: top)).filter fun second => isDirectory nodes (second :: first :: top)).map fun second =>
      (first, second)

section Listing

variable {env : FileEnv} {reader : StateReader} {root path : Bytes} {top : Location Bytes} {nodes : Nodes Bytes Bytes}
variable {directory : Bytes × Bytes} {names : List Bytes}

theorem isDirectoryAt_spelled (enclosure : Enclosure env root top nodes) (spells : Spells root names path) (named : names ≠ []) :
    env.isDirectoryAt nodes path = isDirectory nodes (placeOf top names) := by
  rw [Bool.eq_iff_iff, FileEnv.isDirectoryAt]
  split
  · rename_i place found
    rw [((resolve_found_iff enclosure spells named).1 found).1]
  · rename_i absent
    rw [isDirectory_iff]
    apply Iff.intro
    · intro none
      cases none
    · intro directory
      exact absurd ((resolve_found_iff enclosure spells named).2 ⟨rfl, _, directory⟩) (absent _)

theorem names_spelled (enclosure : Enclosure env root top nodes) (spells : Spells root names path) (named : names ≠ [])
    (directory : isDirectory nodes (placeOf top names) = true) :
    env.names nodes path = env.listing nodes (placeOf top names) := by
  have found : env.resolve true nodes path = .found (placeOf top names) :=
    (resolve_found_iff enclosure spells named).2 ⟨rfl, _, isDirectory_iff.1 directory⟩
  rw [FileEnv.names, found]
  simp only [directory, if_true]

theorem names_top (enclosure : Enclosure env root top nodes) : env.names nodes root = env.listing nodes top := by
  rw [FileEnv.names, resolve_top enclosure]
  simp only [isDirectory_iff.2 enclosure.reaches.directory, if_true]

theorem mem_stateNames (enclosure : Enclosure env root top nodes) (lists : env.Lists nodes) :
    directory ∈ stateNames env nodes top ↔ nodes (stateHome top directory) = some .directory := by
  obtain ⟨first, second⟩ := directory
  simp only [stateNames, List.mem_flatMap, List.mem_filter, List.mem_map, isDirectory_iff, stateHome]
  apply Iff.intro
  · rintro ⟨_, -, _, ⟨-, there⟩, same⟩
    cases same
    exact there
  · intro there
    have above := enclosure.rooted.parent _ _ _ there
    exact ⟨first, ⟨((lists top enclosure.reaches.directory).2 first).2 ⟨_, above⟩, above⟩, second,
      ⟨((lists _ above).2 second).2 ⟨_, there⟩, there⟩, rfl⟩

theorem stateNames_nodup (enclosure : Enclosure env root top nodes) (lists : env.Lists nodes) : (stateNames env nodes top).Nodup := by
  rw [stateNames, List.nodup_flatMap]
  apply And.intro
  · intro first member
    rw [List.mem_filter, isDirectory_iff] at member
    exact ((lists _ member.2).1.filter _).map fun left right same => (Prod.mk.inj same).2
  · refine ((lists _ enclosure.reaches.directory).1.filter _).imp ?_
    intro first other apart directory left right
    obtain ⟨_, -, rfl⟩ := List.mem_map.1 left
    obtain ⟨_, -, same⟩ := List.mem_map.1 right
    exact apart (Prod.mk.inj same).1.symm

theorem stateDirectories_eq (enclosure : Enclosure env root top nodes) (listsNames : env.ListsNames) :
    RqpStateStore.stateDirectories env nodes root = (stateNames env nodes top).map (statePath root) := by
  have firsts : ((env.names nodes root).map (joinPath root)).filter (env.isDirectoryAt nodes) =
      ((env.listing nodes top).filter fun first => isDirectory nodes (first :: top)).map (joinPath root) := by
    rw [names_top enclosure, List.filter_map]
    congr 1
    apply List.filter_congr
    intro first member
    exact isDirectoryAt_spelled enclosure (spells_joinPath enclosure.whole (listsNames _ _ _ member)) (by simp)
  rw [RqpStateStore.stateDirectories, firsts, List.flatMap_map, List.filter_flatMap, stateNames, List.map_flatMap]
  apply List.flatMap_congr
  intro first member
  rw [List.mem_filter] at member
  have above := spells_joinPath enclosure.whole (listsNames _ _ _ member.1)
  rw [names_spelled enclosure above (by simp) member.2, List.filter_map, List.map_map]
  have path : statePath root ∘ (fun second => (first, second)) = joinPath (joinPath root first) := rfl
  rw [path]
  congr 1
  apply List.filter_congr
  intro second inner
  exact isDirectoryAt_spelled enclosure (above.join (listsNames _ _ _ inner)) (by simp)

end Listing

section Order

variable {left right third : RqpInstalledPackage}

theorem listedBefore_iff : listedBefore left right = true ↔ left.metadata.name < right.metadata.name ∨
    (left.metadata.name = right.metadata.name ∧ left.identity ≤ right.identity) := by
  simp [listedBefore]

theorem listedBefore_total : listedBefore left right = true ∨ listedBefore right left = true := by
  rw [listedBefore_iff, listedBefore_iff]
  obtain less | same | more := Std.lt_trichotomy left.metadata.name right.metadata.name
  · exact Or.inl (Or.inl less)
  · obtain below | above := List.le_total left.identity right.identity
    · exact Or.inl (Or.inr ⟨same, below⟩)
    · exact Or.inr (Or.inr ⟨same.symm, above⟩)
  · exact Or.inr (Or.inl more)

theorem listedBefore_trans (first : listedBefore left right = true) (second : listedBefore right third = true) :
    listedBefore left third = true := by
  rw [listedBefore_iff] at first second ⊢
  obtain less | ⟨same, below⟩ := first
  · obtain further | ⟨equal, -⟩ := second
    · exact Or.inl (List.lt_trans less further)
    · exact Or.inl (equal ▸ less)
  · obtain further | ⟨equal, above⟩ := second
    · exact Or.inl (same ▸ further)
    · exact Or.inr ⟨same.trans equal, List.le_trans below above⟩

theorem listedBefore_antisymm (first : listedBefore left right = true) (second : listedBefore right left = true) :
    stateDir left.metadata = stateDir right.metadata := by
  rw [listedBefore_iff] at first second
  obtain less | ⟨same, below⟩ := first
  · obtain more | ⟨equal, -⟩ := second
    · exact absurd more (List.lt_asymm less)
    · rw [equal] at less
      exact absurd less (List.lt_irrefl _)
  · obtain more | ⟨-, above⟩ := second
    · rw [same] at more
      exact absurd more (List.lt_irrefl _)
    · exact Prod.ext same (List.le_antisymm below above)

theorem sorted_unique {packages : List RqpInstalledPackage} {state : RqpState} (same : packages.Perm state.installed) :
    packages.insertionSort (fun left right => listedBefore left right = true) = listInstalled state := by
  let before := fun left right : RqpInstalledPackage => listedBefore left right = true
  have total : Std.Total before := ⟨fun _ _ => listedBefore_total⟩
  have trans : IsTrans RqpInstalledPackage before := ⟨fun _ _ _ => listedBefore_trans⟩
  refine @List.Perm.eq_of_pairwise _ before _ _ ?_ ?_ ?_ ?_
  · intro left right leftListed rightListed first second
    have leftMember := same.mem_iff.1 ((List.mem_insertionSort _).1 leftListed)
    have rightMember := (List.mem_insertionSort _).1 rightListed
    exact List.inj_on_of_nodup_map state.apart leftMember rightMember (listedBefore_antisymm first second)
  · exact List.pairwise_insertionSort before packages
  · exact List.pairwise_insertionSort before state.installed
  · exact (List.perm_insertionSort before packages).trans (same.trans (List.perm_insertionSort before state.installed).symm)

end Order

section Represented

variable {env : FileEnv} {reader : StateReader} {root : Bytes} {top : Location Bytes} {nodes : Nodes Bytes Bytes}
variable {directory : Bytes × Bytes} {state : RqpState} {installed : LoadedState}

theorem stateNames_plain (listsNames : env.ListsNames) (member : directory ∈ stateNames env nodes top) : DirectoryNames directory := by
  simp only [stateNames, List.mem_flatMap, List.mem_filter, List.mem_map] at member
  obtain ⟨first, ⟨listed, -⟩, second, ⟨inner, -⟩, rfl⟩ := member
  exact ⟨listsNames _ _ _ listed, listsNames _ _ _ inner⟩

theorem home_of_loaded (enclosure : Enclosure env root top nodes) (names : DirectoryNames directory)
    (loaded : RqpStateStore.loadInstalled env reader nodes (statePath root directory) = .ok (some installed)) :
    nodes (stateHome top directory) = some .directory := by
  rw [loadInstalled_eq enclosure names] at loaded
  unfold RqpStateStore.loadFiles at loaded
  split at loaded
  · rename_i metadataFile _ _ _
    exact enclosure.rooted.parent _ _ _ (fileAt_eq_some.1 metadataFile)
  · cases loaded

theorem isDirectoryAt_top (enclosure : Enclosure env root top nodes) : env.isDirectoryAt nodes root = true := by
  rw [FileEnv.isDirectoryAt, resolve_top enclosure]
  exact isDirectory_iff.2 enclosure.reaches.directory

theorem listInstalled_represents (represents : Represents env reader root top nodes state) (listsNames : env.ListsNames) :
    ∃ listed, RqpStateStore.listInstalled env reader nodes root = .ok listed ∧
      listed.map LoadedState.package = listInstalled state ∧ ∀ installed ∈ listed, ∃ directory, DirectoryNames directory ∧
        InPlace root directory installed ∧
        RqpStateStore.loadInstalled env reader nodes (statePath root directory) = .ok (some installed) := by
  have enclosure := represents.enclosure
  let entry : Bytes × Bytes → Option LoadedState := fun directory =>
    match RqpStateStore.loadInstalled env reader nodes (statePath root directory) with
    | .ok entry => entry
    | .error _ => none
  have each : ∀ directory, DirectoryNames directory →
      RqpStateStore.loadInstalled env reader nodes (statePath root directory) = .ok (entry directory) ∧
        ∀ installed ∈ entry directory, InPlace root directory installed := by
    intro directory names
    obtain ⟨loaded, read, placed⟩ := @loadInstalled_sound env reader root top nodes directory enclosure names (represents.sound directory names)
    have same : entry directory = loaded := by
      simp only [entry, read]
    rw [same]
    exact ⟨read, placed⟩
  have loads : (RqpStateStore.stateDirectories env nodes root).mapM (RqpStateStore.loadInstalled env reader nodes) =
      .ok ((stateNames env nodes top).map entry) := by
    rw [stateDirectories_eq enclosure listsNames, List.mapM_map]
    exact mapM_ok fun directory member => (each directory (stateNames_plain listsNames member)).1
  let found := (stateNames env nodes top).filterMap entry
  have gathered : ((stateNames env nodes top).map entry).filterMap id = found := List.filterMap_map
  refine ⟨found.insertionSort fun left right => RqpStateStore.loadedBefore left right = true, ?_, ?_, ?_⟩
  · rw [RqpStateStore.listInstalled, isDirectoryAt_top enclosure, if_pos rfl, loads, ← gathered]
    rfl
  · have sorted : (found.insertionSort fun left right => RqpStateStore.loadedBefore left right = true).map LoadedState.package =
        (found.map LoadedState.package).insertionSort fun left right => listedBefore left right = true :=
      List.map_insertionSort _ _ _ _ fun _ _ _ _ => Iff.rfl
    rw [sorted]
    apply sorted_unique
    -- each directory is visited once, and its state is named for it
    have apart : (found.map LoadedState.package).Nodup := by
      have visited : ((found.map LoadedState.package).map fun package => stateDir package.metadata).Sublist (stateNames env nodes top) := by
        rw [List.map_map]
        refine map_filterMap_sublist fun directory listed installed chosen => ?_
        exact ((each directory (stateNames_plain listsNames listed)).2 installed chosen).named
      exact (visited.nodup (stateNames_nodup enclosure represents.lists)).of_map _
    rw [List.perm_ext_iff_of_nodup apart (state.apart.of_map _)]
    intro package
    rw [List.mem_map]
    apply Iff.intro
    · rintro ⟨installed, member, same⟩
      obtain ⟨directory, listed, chosen⟩ := List.mem_filterMap.1 member
      have names := stateNames_plain listsNames listed
      exact ((represents.installed directory names package).2 ⟨installed, chosen ▸ (each directory names).1, same⟩).1
    · intro member
      have names := represents.plain package member
      obtain ⟨installed, loaded, same⟩ := (represents.installed _ names package).1 ⟨member, rfl⟩
      refine ⟨installed, List.mem_filterMap.2 ⟨stateDir package.metadata, ?_, ?_⟩, same⟩
      · exact (mem_stateNames enclosure represents.lists).2 (home_of_loaded enclosure names loaded)
      · exact Except.ok.inj ((each _ names).1.symm.trans loaded)
  · intro installed member
    rw [List.mem_insertionSort, List.mem_filterMap] at member
    obtain ⟨directory, listed, chosen⟩ := member
    have names := stateNames_plain listsNames listed
    exact ⟨directory, names, (each directory names).2 installed chosen, chosen ▸ (each directory names).1⟩

end Represented

end ReqPack.Rqp
