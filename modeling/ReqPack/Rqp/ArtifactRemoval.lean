import ReqPack.Data.FileStatus
import ReqPack.PluginHost.WriteScopes
import ReqPack.Rqp.StateRefinement

/-! # The removal of artifacts

`RqpPlugin::removeInstalledPackage` takes away what the manifest of a package lists, in the
reverse order, but for the paths that the manifest of another package lists as well.  Paths are
compared after the links in them are resolved, on the disk as it is then.
-/

namespace ReqPack.Rqp

open ReqPack.Data
open ReqPack.Data.Ascii
open ReqPack.Data.FileSystem
open ReqPack.PluginHost (pathOf)

/-! ## Paths on a disk -/

namespace FileEnv

variable (env : FileEnv)

/-- Why `status` of a path fails. -/
def failureAt (nodes : Nodes Bytes Bytes) (path : Bytes) : Option Failure :=
  if (cString path).isEmpty then some .absent else failure nodes env.links (env.start path) (nativeParts (cString path))

/-- `canonical` of a path that exists. -/
def canonical (nodes : Nodes Bytes Bytes) (path : Bytes) : LexicalPath Bytes :=
  match env.resolve true nodes path with
  | .found place => ⟨true, straightParts place, false⟩
  | _ => {}

/-- What an iteration over a path visits. -/
def pathElements (path : Bytes) : List Bytes :=
  let components := (path.splitOn slash).filter fun component => !component.isEmpty
  (if path.head? == some slash then [[slash]] else []) ++ components ++
    (if !components.isEmpty && path.getLast? == some slash then [[]] else [])

/-- The leading elements that exist, and the others. -/
def leading (nodes : Nodes Bytes Bytes) : Bytes → List Bytes → Option (Bytes × List Bytes)
  | result, [] => some (result, [])
  | result, element :: elements =>
      match env.failureAt nodes (joinPath result element) with
      | none => leading nodes (joinPath result element) elements
      | some .tooManyLinks => none
      | some _ => some (result, element :: elements)

/-- `weakly_canonical`. -/
def weaklyCanonical (nodes : Nodes Bytes Bytes) (path : Bytes) : Option (LexicalPath Bytes) :=
  match env.failureAt nodes path with
  | none => some (env.canonical nodes path)
  | some .tooManyLinks => none
  | some _ =>
      (env.leading nodes [] (pathElements path)).map fun (result, rest) =>
        (rest.foldl (fun path element => path.append (pathOf element))
          (if result.isEmpty then {} else env.canonical nodes result)).lexicallyNormal

/-- The place of the last component of a path, a slash behind it aside. -/
def namedPlace (nodes : Nodes Bytes Bytes) (path : Bytes) : Walk Bytes :=
  if (cString path).isEmpty then .failed else walk nodes false env.links (env.start path) (dirParts (cString path))

/-- `remove`.  Neither `.` nor `..` can be removed, nor a link with a slash behind it. -/
def unlink (stuck : List (Location Bytes)) (path : Bytes) (disk : PayloadDisk) : Outcome Bytes Bytes :=
  match (dirParts (cString path)).getLast?, env.namedPlace disk.nodes path with
  | some (.name _), .found place =>
      if (cString path).getLast? = some slash ∧ isDirectory disk.nodes place = false then (disk, false)
      else removeNode (stuck.contains place)
        (isDirectory disk.nodes place && !(env.listing disk.nodes place).isEmpty) place disk
  | some (.name _), .missing _ _ => (disk, true)
  | some (.name _), .failed => (disk, env.failureAt disk.nodes path == some .absent)
  | _, _ => (disk, false)

def readTextFile (nodes : Nodes Bytes Bytes) (path : Bytes) : Except Bytes Bytes :=
  match env.read nodes path with
  | some content => .ok content
  | none => .error (bytes "failed to open file: " ++ path)

/-- Normal forms are written alike when they are the same. -/
def normalizeManifestPathString (nodes : Nodes Bytes Bytes) (path : Bytes) : LexicalPath Bytes :=
  (env.weaklyCanonical nodes path).getD (pathOf path).lexicallyNormal

end FileEnv

def LoadedState.manifestPath (installed : LoadedState) : Bytes := joinPath installed.stateDir (bytes "manifest.json")

/-! ## `removeManifestArtifacts` -/

section Removing

variable (env : FileEnv) (reader : StateReader)

/-- The manifest of an installed package. -/
def readManifest (nodes : Nodes Bytes Bytes) (installed : LoadedState) : Except Bytes (List ManifestEntry) :=
  (env.readTextFile nodes installed.manifestPath).map (parseManifestJson reader.json.readTree)

/-- The loops over the other packages and their manifests. -/
def neededBy (nodes : Nodes Bytes Bytes) (installed : LoadedState) (path : Bytes) : List LoadedState → Except Bytes Bool
  | [] => .ok false
  | other :: others =>
      if pathOf other.stateDir = pathOf installed.stateDir then neededBy nodes installed path others
      else
        match readManifest env reader nodes other with
        | .error message => .error message
        | .ok manifest =>
            if manifest.any fun entry => env.normalizeManifestPathString nodes entry.path =
              env.normalizeManifestPathString nodes path then .ok true
            else neededBy nodes installed path others

def pathStillNeededElsewhere (nodes : Nodes Bytes Bytes) (root : Bytes) (installed : LoadedState) (path : Bytes) :
    Except Bytes Bool :=
  match RqpStateStore.listInstalled env reader nodes root with
  | .error message => .error message
  | .ok listed => neededBy env reader nodes installed path listed

/-- The body of the loop behind its first test.  Only a path that is not there is no error. -/
def removeArtifact (stuck : List (Location Bytes)) (entry : ManifestEntry) (disk : PayloadDisk) : Outcome Bytes Bytes :=
  match env.failureAt disk.nodes entry.path with
  | some reason =>
      (disk, if entry.type = bytes "dir" then reason == .absent else reason != .tooManyLinks)
  | none =>
      if entry.type = bytes "dir" then
        if env.isDirectoryAt disk.nodes entry.path ∧ env.isEmpty disk.nodes entry.path = some true then
          env.unlink stuck entry.path disk
        else (disk, true)
      else env.unlink stuck entry.path disk

variable (root : Bytes) (installed : LoadedState) (stuck : List (Location Bytes))

def removeArtifacts : List ManifestEntry → PayloadDisk → PayloadDisk × Except Bytes Bool
  | [], disk => (disk, .ok true)
  | entry :: entries, disk =>
      if entry.path.isEmpty then removeArtifacts entries disk
      else
        match pathStillNeededElsewhere env reader disk.nodes root installed entry.path with
        | .error message => (disk, .error message)
        | .ok true => removeArtifacts entries disk
        | .ok false =>
            let removed := removeArtifact env stuck entry disk
            if removed.2 then removeArtifacts entries removed.1 else (removed.1, .ok false)

def removeManifestArtifacts (disk : PayloadDisk) : PayloadDisk × Except Bytes Bool :=
  match readManifest env reader disk.nodes installed with
  | .error message => (disk, .error message)
  | .ok manifest => removeArtifacts env reader root installed stuck manifest.reverse disk

end Removing

/-! ## What a removal takes -/

/-- The path of the names from the root. -/
abbrev Straight (path : Bytes) (place : Location Bytes) : Prop := Spells [slash] place.reverse path

/-- The node that `remove` takes under a path: no directory that something stands in. -/
structure Unlinks (env : FileEnv) (nodes : Nodes Bytes Bytes) (path : Bytes) (place : Location Bytes) : Prop where
  named : env.namedPlace nodes path = .found place
  closed : (cString path).getLast? = some slash → nodes place = some .directory
  bare : nodes place = some .directory → env.listing nodes place = []

section Taking

variable {env : FileEnv} {reader : StateReader} {root path other : Bytes} {top place goal : Location Bytes}
variable {nodes later : Nodes Bytes Bytes} {disk : PayloadDisk} {stuck : List (Location Bytes)} {entry : ManifestEntry}

theorem nativeParts_of_open (closed : path.getLast? = some slash) : nativeParts path = dirParts path ++ [.here] := by
  rw [nativeParts, dirParts, closed]
  rfl

theorem failureAt_eq_none_iff : env.failureAt nodes path = none ↔ ∃ place, env.resolve true nodes path = .found place := by
  rw [FileEnv.failureAt, FileEnv.resolve]
  split
  · exact iff_of_false (by simp) (by simp)
  · exact failure_eq_none_iff

theorem namedPlace_of_found (found : env.resolve true nodes path = .found place) :
    ∃ named, env.namedPlace nodes path = .found named := by
  rw [FileEnv.resolve] at found
  rw [FileEnv.namedPlace]
  split at found
  · cases found
  · next filled =>
      rw [if_neg filled]
      by_cases closed : (cString path).getLast? = some slash
      · rw [nativeParts_of_open closed] at found
        obtain ⟨middle, front⟩ := walk_front (List.cons_ne_nil _ _) found
        exact walk_unfollowed front
      · rw [nativeParts_of_closed closed] at found
        exact walk_unfollowed found

theorem unlink_cases :
    ((env.unlink stuck path disk).1 = disk ∧
      ((env.unlink stuck path disk).2 = true → ∀ place, env.namedPlace disk.nodes path ≠ .found place)) ∨
    ∃ place, Unlinks env disk.nodes path place ∧
      (env.unlink stuck path disk).1 = ⟨Function.update disk.nodes place none, disk.touched⟩ := by
  rw [FileEnv.unlink]
  split
  · next place _ named =>
      split
      · exact Or.inl ⟨rfl, nofun⟩
      · next open_ =>
          rw [removeNode]
          split
          · exact Or.inl ⟨rfl, nofun⟩
          · next free =>
              refine Or.inr ⟨place, ⟨named, fun closed => ?_, fun directory => ?_⟩, rfl⟩
              · by_contra plain
                exact open_ ⟨closed, by simpa using mt isDirectory_iff.1 plain⟩
              · rw [isDirectory_iff.2 directory, Bool.true_and, Bool.or_eq_true, not_or, Bool.not_eq_true, Bool.not_eq_true,
                  Bool.not_eq_false', List.isEmpty_iff] at free
                exact free.2
  · next missing =>
      exact Or.inl ⟨rfl, fun _ place found => by cases missing.symm.trans found⟩
  · next failed =>
      exact Or.inl ⟨rfl, fun _ place found => by cases failed.symm.trans found⟩
  · exact Or.inl ⟨rfl, nofun⟩

/-- The directory of an entry is there and nothing stands in it. -/
def EmptyDirectory (env : FileEnv) (nodes : Nodes Bytes Bytes) (path : Bytes) : Prop :=
  env.isDirectoryAt nodes path = true ∧ env.isEmpty nodes path = some true

theorem removeArtifact_cases :
    ((removeArtifact env stuck entry disk).1 = disk ∧
      ((removeArtifact env stuck entry disk).2 = true → env.failureAt disk.nodes entry.path ≠ none ∨
        (entry.type = bytes "dir" ∧ ¬ EmptyDirectory env disk.nodes entry.path))) ∨
    ∃ place, env.failureAt disk.nodes entry.path = none ∧ Unlinks env disk.nodes entry.path place ∧
      (removeArtifact env stuck entry disk).1 = ⟨Function.update disk.nodes place none, disk.touched⟩ := by
  rw [removeArtifact]
  split
  · next there => exact Or.inl ⟨rfl, fun _ => Or.inl (by simp [there])⟩
  · next there =>
      obtain ⟨goal, found⟩ := failureAt_eq_none_iff.1 there
      obtain ⟨named, present⟩ := namedPlace_of_found found
      have taken : ((env.unlink stuck entry.path disk).1 = disk ∧ ((env.unlink stuck entry.path disk).2 = true →
          env.failureAt disk.nodes entry.path ≠ none ∨
            (entry.type = bytes "dir" ∧ ¬ EmptyDirectory env disk.nodes entry.path))) ∨
          ∃ place, env.failureAt disk.nodes entry.path = none ∧ Unlinks env disk.nodes entry.path place ∧
            (env.unlink stuck entry.path disk).1 = ⟨Function.update disk.nodes place none, disk.touched⟩ := by
        obtain ⟨same, absent⟩ | ⟨place, unlinks, same⟩ := @unlink_cases env entry.path disk stuck
        · exact Or.inl ⟨same, fun done => absurd present (absent done named)⟩
        · exact Or.inr ⟨place, there, unlinks, same⟩
      split
      · next type =>
          split
          · exact taken
          · next filled => exact Or.inl ⟨rfl, fun _ => Or.inr ⟨type, filled⟩⟩
      · exact taken

/-! ### Paths that are compared -/

theorem normalize_of_found (found : env.resolve true nodes path = .found goal) :
    env.normalizeManifestPathString nodes path = ⟨true, straightParts goal, false⟩ := by
  rw [FileEnv.normalizeManifestPathString, FileEnv.weaklyCanonical, failureAt_eq_none_iff.2 ⟨goal, found⟩,
    FileEnv.canonical, found]
  rfl

theorem Spells.resolve_root {names : List Bytes} (spells : Spells [slash] names path) (named : names ≠ []) (follow : Bool)
    (nodes : Nodes Bytes Bytes) : env.resolve follow nodes path = walk nodes follow env.links [] (names.map .name) := by
  obtain ⟨filled, start, parts⟩ := @Spells.native env [slash] path names spells named
  rw [FileEnv.resolve, filled, if_neg (by decide), start, parts]
  rfl

theorem Unlinks.normalize (unlinks : Unlinks env nodes path place) (mounted : Mounted env.cwd nodes)
    (there : env.failureAt nodes path = none) (straight : Straight other place) (placed : place ≠ []) :
    env.normalizeManifestPathString nodes other = env.normalizeManifestPathString nodes path := by
  obtain ⟨goal, found⟩ := failureAt_eq_none_iff.1 there
  have start := FileEnv.start_directory mounted path
  have named := unlinks.named
  suffices ended : env.resolve true nodes other = .found goal by rw [normalize_of_found found, normalize_of_found ended]
  rw [straight.resolve_root (by simpa using placed)]
  rw [FileEnv.namedPlace] at named
  rw [FileEnv.resolve] at found
  split at named
  · cases named
  · next filled =>
      rw [if_neg filled] at found
      by_cases closed : (cString path).getLast? = some slash
      · have directory := unlinks.closed closed
        have plain : ∀ absolute target, nodes place ≠ some (.link absolute target) := by
          intro absolute target link
          rw [directory] at link
          cases link
        have ended : walk nodes true env.links (env.start path) (dirParts (cString path) ++ [.here]) = .found place :=
          walk_here directory (walk_plain plain named)
        rw [nativeParts_of_open closed, ended] at found
        cases found
        exact walk_straight mounted.rooted directory (by simp)
      · rw [nativeParts_of_closed closed] at found
        exact walk_straight_of_found mounted.rooted start named found

end Taking

/-! ## What stays -/

section Staying

variable {env : FileEnv} {reader : StateReader} {root path : Bytes} {top place : Location Bytes} {disk : PayloadDisk}
variable {nodes later : Nodes Bytes Bytes} {state : RqpState} {listed : List LoadedState} {installed other : LoadedState}
variable {manifest : List ManifestEntry} {entry : ManifestEntry}

theorem neededBy_listed (member : other ∈ listed) (apart : pathOf other.stateDir ≠ pathOf installed.stateDir)
    (read : readManifest env reader nodes other = .ok manifest) (inside : entry ∈ manifest)
    (same : env.normalizeManifestPathString nodes entry.path = env.normalizeManifestPathString nodes path) :
    neededBy env reader nodes installed path listed ≠ .ok false := by
  induction listed with
  | nil => cases member
  | cons first listed ih =>
      rw [neededBy]
      obtain here | deeper := List.mem_cons.1 member
      · subst here
        rw [if_neg apart, read]
        have found : (manifest.any fun entry => decide (env.normalizeManifestPathString nodes entry.path =
            env.normalizeManifestPathString nodes path)) = true :=
          List.any_eq_true.2 ⟨entry, inside, by simpa using same⟩
        simp [found]
      · split
        · exact ih deeper
        · split
          · exact nofun
          · split
            · exact nofun
            · exact ih deeper

theorem eq_of_bare {node : Node Bytes Bytes} (rooted : Rooted nodes) (bare : ∀ value, nodes (value :: place) = none)
    (present : nodes top = some node) (above : place <:+ top) : place = top := by
  obtain ⟨front, rfl⟩ := above
  obtain rfl | ⟨front, value, rfl⟩ := List.eq_nil_or_concat front
  · rfl
  · rw [List.concat_append] at present
    by_cases last : front = []
    · subst last
      rw [List.nil_append, bare] at present
      cases present
    · have directory := rooted.above last present
      rw [bare] at directory
      cases directory

/-- A node is taken beside the state root, and not the current directory. -/
structure TakenApart (env : FileEnv) (top place : Location Bytes) (nodes later : Nodes Bytes Bytes) : Prop where
  bare : ∀ value, nodes (value :: place) = none
  apart : ¬ top <:+ place
  away : place ≠ env.cwd
  later : later = Function.update nodes place none

theorem TakenApart.kept {location : Location Bytes} (taken : TakenApart env top place nodes later) (other : location ≠ place) :
    later location = nodes location := by
  rw [taken.later]
  exact Function.update_of_ne other ..

theorem TakenApart.within {location : Location Bytes} (taken : TakenApart env top place nodes later) (inside : top <:+ location) :
    later location = nodes location := by
  refine taken.kept ?_
  rintro rfl
  exact taken.apart inside

theorem TakenApart.rooted (taken : TakenApart env top place nodes later) (rooted : Rooted nodes)
    (directory : nodes top = some .directory) : Rooted later where
  root := by
    rw [taken.kept, rooted.root]
    rintro rfl
    have same := eq_of_bare rooted taken.bare directory List.nil_suffix
    exact taken.apart (same ▸ List.nil_suffix)
  parent value location node present := by
    have before : nodes (value :: location) = some node := by
      rw [taken.later, Function.update_apply] at present
      split at present
      · cases present
      · exact present
    rw [taken.kept, rooted.parent value location node before]
    rintro rfl
    rw [taken.bare] at before
    cases before

theorem TakenApart.enclosure (taken : TakenApart env top place nodes later) (enclosure : Enclosure env root top nodes)
    (straight : Straight root top) : Enclosure env root top later := by
  have rooted := taken.rooted enclosure.rooted enclosure.reaches.directory
  have directory : later top = some .directory := by
    rw [taken.within (List.suffix_refl top), enclosure.reaches.directory]
  have outside : Rooted (outsideOf top later) := outsideOf_rooted rooted
  refine ⟨enclosure.filled, enclosure.whole, rooted, ⟨outside, ?_⟩, ⟨?_, directory, ?_⟩⟩
  · obtain ⟨here, apart⟩ := eq_of_outsideOf enclosure.mounted.base
    rw [outsideOf_apart apart, taken.kept (Ne.symm taken.away), here]
  · have reached : outsideOf top later top = some .directory := by rw [outsideOf_apart (not_below_top top), directory]
    have start : env.start root = [] := by
      rw [start_of_sameStart straight.start]
      rfl
    rw [start, straight.parts]
    exact walk_straight outside reached fun _ => nofun
  · intro location below absolute target link
    rw [taken.within below] at link
    exact enclosure.reaches.unlinked location below absolute target link

theorem Represents.within (represents : Represents env reader root top nodes state) (enclosure : Enclosure env root top later)
    (lists : env.Lists later) (same : ∀ location, top <:+ location → later location = nodes location) :
    Represents env reader root top later state := by
  have inside : ∀ directory name, top <:+ name :: stateHome top directory := fun directory name =>
    ⟨[name, directory.2, directory.1], rfl⟩
  refine ⟨enclosure, lists, fun directory names => ?_, represents.plain, fun directory names package => ?_⟩
  · have sound := represents.sound directory names
    refine ⟨fun content present => ?_, fun content present => ?_, fun content present => ?_⟩
    · exact sound.metadata content (same _ (inside _ _) ▸ present)
    · exact sound.hooks content (same _ (inside _ _) ▸ present)
    · exact sound.source content (same _ (inside _ _) ▸ present)
  · rw [represents.installed directory names package, loadInstalled_congr represents.enclosure enclosure names]
    intro name content
    rw [same _ (inside _ _)]

theorem mem_listed (represents : Represents env reader root top nodes state) (listsNames : env.ListsNames)
    (found : RqpStateStore.listInstalled env reader nodes root = .ok listed) {directory : Bytes × Bytes} (names : DirectoryNames directory)
    (named : stateDir other.package.metadata = directory)
    (loaded : RqpStateStore.loadInstalled env reader nodes (statePath root directory) = .ok (some other)) : other ∈ listed := by
  obtain ⟨_, here, packages, placed⟩ := listInstalled_represents represents listsNames
  cases Except.ok.inj (here.symm.trans found)
  have package : other.package ∈ listed.map LoadedState.package := by
    rw [packages, listInstalled, List.mem_insertionSort]
    exact ((represents.installed directory names other.package).2 ⟨other, loaded, rfl⟩).1
  obtain ⟨twin, member, same⟩ := List.mem_map.1 package
  obtain ⟨twinDirectory, -, twinPlace, twinLoaded⟩ := placed twin member
  have meets : twinDirectory = directory := by rw [← twinPlace.named, ← named, same]
  rw [meets, loaded] at twinLoaded
  cases twinLoaded
  exact member

theorem read_manifestPath (enclosure : Enclosure env root top nodes) {directory : Bytes × Bytes} (names : DirectoryNames directory)
    (inPlace : InPlace root directory other) :
    env.read nodes other.manifestPath = fileAt nodes (bytes "manifest.json" :: stateHome top directory) := by
  have path : other.manifestPath = joinPath (statePath root directory) (bytes "manifest.json") := by
    rw [LoadedState.manifestPath, inPlace.path]
  rw [path, read_stateFile enclosure names (fileName_of_text (by decide) (by decide))]

theorem readManifest_congr (enclosure : Enclosure env root top nodes) (after : Enclosure env root top later)
    {directory : Bytes × Bytes} (names : DirectoryNames directory) (inPlace : InPlace root directory other)
    (same : fileAt later (bytes "manifest.json" :: stateHome top directory) =
      fileAt nodes (bytes "manifest.json" :: stateHome top directory)) :
    readManifest env reader later other = readManifest env reader nodes other := by
  rw [readManifest, readManifest, FileEnv.readTextFile, FileEnv.readTextFile, read_manifestPath enclosure names inPlace,
    read_manifestPath after names inPlace, same]

theorem listed_again {next : RqpState} (represents : Represents env reader root top nodes state)
    (after : Represents env reader root top later next) (listsNames : env.ListsNames)
    (found : RqpStateStore.listInstalled env reader nodes root = .ok listed) (member : other ∈ listed)
    (same : ∀ directory, DirectoryNames directory → InPlace root directory other → ∀ name,
      later (name :: stateHome top directory) = nodes (name :: stateHome top directory)) :
    (∃ again, RqpStateStore.listInstalled env reader later root = .ok again ∧ other ∈ again) ∧
      readManifest env reader later other = readManifest env reader nodes other := by
  obtain ⟨_, here, -, placed⟩ := listInstalled_represents represents listsNames
  cases Except.ok.inj (here.symm.trans found)
  obtain ⟨again, there, -⟩ := listInstalled_represents after listsNames
  obtain ⟨directory, names, inPlace, loaded⟩ := placed other member
  have kept := same directory names inPlace
  have reload : RqpStateStore.loadInstalled env reader later (statePath root directory) = .ok (some other) := by
    rw [loadInstalled_congr represents.enclosure after.enclosure names fun name content => by rw [kept], loaded]
  refine ⟨⟨again, there, mem_listed after listsNames there names inPlace.named reload⟩, ?_⟩
  exact readManifest_congr represents.enclosure after.enclosure names inPlace (by rw [fileAt, fileAt, kept])

end Staying

/-! ## Shared artifacts -/

/-- The manifest of another package lists a place by its straight path. -/
def Shared (env : FileEnv) (reader : StateReader) (nodes : Nodes Bytes Bytes) (listed : List LoadedState)
    (installed : LoadedState) (place : Location Bytes) : Prop :=
  ∃ other ∈ listed, pathOf other.stateDir ≠ pathOf installed.stateDir ∧
    ∃ manifest, readManifest env reader nodes other = .ok manifest ∧ ∃ entry ∈ manifest, Straight entry.path place

/-- The paths of a manifest lead past the state root and the current directory. -/
def LeadsPast (env : FileEnv) (top : Location Bytes) (nodes : Nodes Bytes Bytes) (manifest : List ManifestEntry) : Prop :=
  ∀ entry ∈ manifest, ∀ place, env.namedPlace nodes entry.path = .found place → ¬ top <:+ place ∧ place ≠ env.cwd

/-- What a removal of artifacts leaves. -/
structure Spares (env : FileEnv) (reader : StateReader) (root : Bytes) (top : Location Bytes) (state : RqpState)
    (listed : List LoadedState) (installed : LoadedState) (manifest : List ManifestEntry) (nodes later : Nodes Bytes Bytes) :
    Prop where
  represents : Represents env reader root top later state
  taken : Taken nodes later
  within : ∀ location, top <:+ location → later location = nodes location
  shared : ∀ place, Shared env reader nodes listed installed place → later place = nodes place
  named : ∀ location, later location = nodes location ∨
    ∃ entry ∈ manifest, env.namedPlace nodes entry.path = .found location

section Sparing

variable {env : FileEnv} {reader : StateReader} {root : Bytes} {top place : Location Bytes} {disk : PayloadDisk}
variable {nodes later : Nodes Bytes Bytes} {state : RqpState} {listed : List LoadedState} {installed : LoadedState}
variable {manifest entries : List ManifestEntry} {entry : ManifestEntry} {stuck : List (Location Bytes)}

theorem namedPlace_taken {path : Bytes} (taken : Taken nodes later) (named : env.namedPlace later path = .found place) :
    env.namedPlace nodes path = .found place := by
  rw [FileEnv.namedPlace] at named ⊢
  split at named
  · cases named
  · next filled =>
      rw [if_neg filled]
      exact walk_grows taken.grows named

theorem Unlinks.takenApart {path : Bytes} (unlinks : Unlinks env nodes path place) (represents : Represents env reader root top nodes state)
    (past : ¬ top <:+ place ∧ place ≠ env.cwd) : TakenApart env top place nodes (Function.update nodes place none) where
  bare value := by
    by_contra present
    obtain ⟨node, there⟩ := Option.ne_none_iff_exists'.1 present
    have directory := represents.enclosure.rooted.parent value place node there
    have inside := ((represents.lists place directory).2 value).2 ⟨node, there⟩
    rw [unlinks.bare directory] at inside
    cases inside
  apart := past.1
  away := past.2
  later := rfl

theorem Unlinks.not_shared (unlinks : Unlinks env disk.nodes entry.path place) (there : env.failureAt disk.nodes entry.path = none)
    (spares : Spares env reader root top state listed installed manifest nodes disk.nodes)
    (represents : Represents env reader root top nodes state) (listsNames : env.ListsNames)
    (found : RqpStateStore.listInstalled env reader nodes root = .ok listed)
    (needless : pathStillNeededElsewhere env reader disk.nodes root installed entry.path = .ok false)
    (past : ¬ top <:+ place ∧ place ≠ env.cwd) : ¬ Shared env reader nodes listed installed place := by
  rintro ⟨other, member, apart, manifest, read, shared, inside, straight⟩
  obtain ⟨⟨again, listedAgain, memberAgain⟩, manifestAgain⟩ :=
    listed_again represents spares.represents listsNames found member fun directory _ _ name =>
      spares.within _ ⟨[name, directory.2, directory.1], rfl⟩
  rw [pathStillNeededElsewhere, listedAgain] at needless
  have placed : place ≠ [] := by
    rintro rfl
    have directory := spares.represents.enclosure.reaches.directory
    have bare := (unlinks.takenApart spares.represents past).bare
    exact past.1 (eq_of_bare spares.represents.enclosure.rooted bare directory List.nil_suffix ▸ List.suffix_refl _)
  exact neededBy_listed memberAgain apart (manifestAgain.trans read) inside
    (unlinks.normalize spares.represents.enclosure.mountedWhole there straight placed) needless

theorem removeArtifact_spares (spares : Spares env reader root top state listed installed manifest nodes disk.nodes)
    (represents : Represents env reader root top nodes state) (straight : Straight root top) (listsNames : env.ListsNames)
    (lists : ∀ later, Taken nodes later → env.Lists later) (past : LeadsPast env top nodes manifest)
    (found : RqpStateStore.listInstalled env reader nodes root = .ok listed) (member : entry ∈ manifest)
    (needless : pathStillNeededElsewhere env reader disk.nodes root installed entry.path = .ok false) :
    Spares env reader root top state listed installed manifest nodes (removeArtifact env stuck entry disk).1.nodes := by
  obtain ⟨same, -⟩ | ⟨place, there, unlinks, removed⟩ := @removeArtifact_cases env disk stuck entry
  · rw [same]
    exact spares
  · have named := namedPlace_taken spares.taken unlinks.named
    have apart := past entry member place named
    have takenApart := unlinks.takenApart spares.represents apart
    have taken : Taken nodes (Function.update disk.nodes place none) := by
      intro location
      by_cases here : location = place
      · exact Or.inr (here ▸ Function.update_self ..)
      · rw [takenApart.kept here]
        exact spares.taken location
    have within : ∀ location, top <:+ location → Function.update disk.nodes place none location = nodes location :=
      fun location inside => (takenApart.within inside).trans (spares.within location inside)
    have unshared := unlinks.not_shared there spares represents listsNames found needless apart
    rw [removed]
    refine ⟨represents.within (takenApart.enclosure spares.represents.enclosure straight) (lists _ taken) within, taken, within,
      fun other shared => ?_, fun location => ?_⟩
    · refine (takenApart.kept ?_).trans (spares.shared other shared)
      rintro rfl
      exact unshared shared
    · by_cases here : location = place
      · exact Or.inr ⟨entry, member, here ▸ named⟩
      · exact (spares.named location).imp_left fun before => (takenApart.kept here).trans before

theorem removeArtifacts_spares (spares : Spares env reader root top state listed installed manifest nodes disk.nodes)
    (represents : Represents env reader root top nodes state) (straight : Straight root top) (listsNames : env.ListsNames)
    (lists : ∀ later, Taken nodes later → env.Lists later) (past : LeadsPast env top nodes manifest)
    (found : RqpStateStore.listInstalled env reader nodes root = .ok listed) (members : ∀ entry ∈ entries, entry ∈ manifest) :
    Spares env reader root top state listed installed manifest nodes
      (removeArtifacts env reader root installed stuck entries disk).1.nodes := by
  induction entries generalizing disk with
  | nil => exact spares
  | cons entry entries ih =>
      rw [List.forall_mem_cons] at members
      rw [removeArtifacts]
      split
      · exact ih spares members.2
      · split
        · exact spares
        · exact ih spares members.2
        · next needless =>
            have step : Spares env reader root top state listed installed manifest nodes (removeArtifact env stuck entry disk).1.nodes :=
              removeArtifact_spares spares represents straight listsNames lists past found members.1 needless
            dsimp only
            split
            · exact ih step members.2
            · exact step

/-- A removal of artifacts takes what the manifest names, beside the state root, and nothing that another package has
listed; the store stays as it is. -/
theorem removeManifestArtifacts_spares (represents : Represents env reader root top disk.nodes state) (straight : Straight root top)
    (listsNames : env.ListsNames) (lists : ∀ later, Taken disk.nodes later → env.Lists later)
    (found : RqpStateStore.listInstalled env reader disk.nodes root = .ok listed)
    (read : readManifest env reader disk.nodes installed = .ok manifest) (past : LeadsPast env top disk.nodes manifest) :
    Spares env reader root top state listed installed manifest disk.nodes
      (removeManifestArtifacts env reader root installed stuck disk).1.nodes := by
  rw [removeManifestArtifacts, read]
  have start : Spares env reader root top state listed installed manifest disk.nodes disk.nodes :=
    ⟨represents, Taken.refl _, fun _ _ => rfl, fun _ _ => rfl, fun _ => Or.inl rfl⟩
  exact removeArtifacts_spares start represents straight listsNames lists past found fun entry member => List.mem_reverse.1 member

end Sparing

end ReqPack.Rqp
