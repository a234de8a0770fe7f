import ReqPack.Data.FileBelow
import ReqPack.Rqp.Persistence
import ReqPack.Rqp.StateDirectories

/-! # The state root on disk

A state root is a directory with no links below it.  Paths of names into it are walked name by
name, and what is written under them stays inside.
-/

namespace ReqPack.Rqp

open ReqPack.Data
open ReqPack.Data.Ascii
open ReqPack.Data.FileSystem

/-- A name as a directory lists it. -/
structure FileName (name : Bytes) : Prop where
  plain : isDirectoryName name = true
  whole : 0 ∉ name

/-- The path leads to a directory below which no links stand, and neither the way there nor the current
directory lies in it. -/
structure Enclosure (env : FileEnv) (root : Bytes) (top : Location Bytes) (nodes : Nodes Bytes Bytes) : Prop where
  filled : root ≠ []
  whole : 0 ∉ root
  rooted : Rooted nodes
  mounted : Mounted env.cwd (outsideOf top nodes)
  reaches : Reaches env.links (env.start root) (dirParts root) top nodes

/-- A path spells names below a directory. -/
structure Spells (root : Bytes) (names : List Bytes) (path : Bytes) : Prop where
  start : SameStart path root
  parts : dirParts path = dirParts root ++ names.map .name
  closed : path.getLast? ≠ some slash
  whole : 0 ∉ path

/-- The place of names below a directory. -/
def placeOf (top : Location Bytes) (names : List Bytes) : Location Bytes := names.reverse ++ top

section Spelling

variable {root path name : Bytes} {names : List Bytes}

theorem relative_of_name (plain : isDirectoryName name = true) : name.head? ≠ some slash := by
  intro absolute
  exact (isDirectoryName_iff.1 plain).2.1 (List.mem_of_mem_head? absolute)

theorem getLast?_joinPath (plain : isDirectoryName name = true) : (joinPath path name).getLast? ≠ some slash := by
  obtain ⟨filled, unbroken, -⟩ := isDirectoryName_iff.1 plain
  have ends : ∀ front : Bytes, (front ++ name).getLast? ≠ some slash := by
    intro front last
    rw [List.getLast?_append_of_ne_nil _ filled] at last
    exact unbroken (List.mem_of_mem_getLast? last)
  rw [joinPath, if_neg (by simpa using relative_of_name plain)]
  split
  · exact ends path
  · rw [← List.singleton_append, ← List.append_assoc]
    exact ends _

theorem joinPath_whole (fileName : FileName name) (whole : 0 ∉ path) : 0 ∉ joinPath path name := by
  rw [joinPath, if_neg (by simpa using relative_of_name fileName.plain)]
  split
  · rw [List.mem_append, not_or]
    exact ⟨whole, fileName.whole⟩
  · rw [List.mem_append, List.mem_cons, not_or, not_or]
    exact ⟨whole, by decide, fileName.whole⟩

theorem sameStart_joinPath (plain : isDirectoryName name = true) (start : SameStart path root) :
    SameStart (joinPath path name) root := by
  rw [SameStart, head?_join]
  exact (or_iff_right (relative_of_name plain)).trans start

theorem dirParts_joinName (plain : isDirectoryName name = true) :
    dirParts (joinPath path name) = dirParts path ++ [.name name] := by
  rw [dirParts_join, if_neg (relative_of_name plain), dirParts_name plain]

theorem Spells.join (spells : Spells root names path) (fileName : FileName name) :
    Spells root (names ++ [name]) (joinPath path name) where
  start := sameStart_joinPath fileName.plain spells.start
  parts := by rw [dirParts_joinName fileName.plain, spells.parts, List.map_append, List.append_assoc, List.map_singleton]
  closed := getLast?_joinPath fileName.plain
  whole := joinPath_whole fileName spells.whole

theorem spells_joinPath (whole : 0 ∉ root) (fileName : FileName name) : Spells root [name] (joinPath root name) where
  start := sameStart_joinPath fileName.plain Iff.rfl
  parts := dirParts_joinName fileName.plain
  closed := getLast?_joinPath fileName.plain
  whole := joinPath_whole fileName whole

theorem Spells.filled (spells : Spells root names path) (named : names ≠ []) : path ≠ [] := by
  intro empty
  have parts := spells.parts
  rw [empty, dirParts_nil, eq_comm, List.append_eq_nil_iff, List.map_eq_nil_iff] at parts
  exact named parts.2

end Spelling

section Walking

variable {env : FileEnv} {root path content : Bytes} {top place : Location Bytes} {names : List Bytes} {disk : PayloadDisk}
variable {nodes : Nodes Bytes Bytes} {follow : Bool}

theorem cString_of_whole (whole : 0 ∉ path) : cString path = path := takeWhile_ne_eq_self whole

theorem nativeParts_of_closed (closed : path.getLast? ≠ some slash) : nativeParts path = dirParts path := by
  rw [nativeParts, dirParts, if_neg (by simpa using closed), List.append_nil]

theorem start_of_sameStart (start : SameStart path root) : env.start path = env.start root := by
  rw [FileEnv.start, FileEnv.start]
  by_cases absolute : path.head? = some slash
  · rw [if_pos (by simpa using absolute), if_pos (by simpa using start.1 absolute)]
  · rw [if_neg (by simpa using absolute), if_neg (by simpa using mt start.2 absolute)]

theorem Spells.native (spells : Spells root names path) (named : names ≠ []) :
    (cString path).isEmpty = false ∧ env.start path = env.start root ∧
      nativeParts (cString path) = dirParts root ++ names.map .name := by
  rw [cString_of_whole spells.whole]
  refine ⟨List.isEmpty_eq_false_iff.2 (spells.filled named), start_of_sameStart spells.start, ?_⟩
  rw [nativeParts_of_closed spells.closed, spells.parts]

theorem resolve_spelled (enclosure : Enclosure env root top nodes) (spells : Spells root names path) (named : names ≠ []) :
    env.resolve follow nodes path = descend nodes top names := by
  obtain ⟨filled, start, parts⟩ := @Spells.native env root path names spells named
  rw [FileEnv.resolve, filled, if_neg (by decide), start, parts]
  exact walk_below enclosure.reaches.unlinked enclosure.reaches.directory named enclosure.reaches.found

theorem resolve_found_iff (enclosure : Enclosure env root top nodes) (spells : Spells root names path) (named : names ≠ []) :
    env.resolve follow nodes path = .found place ↔ place = placeOf top names ∧ ∃ node, nodes place = some node := by
  rw [resolve_spelled enclosure spells named]
  exact descend_found_iff enclosure.rooted enclosure.reaches.directory

theorem resolve_top (enclosure : Enclosure env root top nodes) : env.resolve true nodes root = .found top := by
  have filled : (cString root).isEmpty = false := by
    rw [cString_of_whole enclosure.whole]
    exact List.isEmpty_eq_false_iff.2 enclosure.filled
  rw [FileEnv.resolve, filled, if_neg (by decide), cString_of_whole enclosure.whole]
  have parts : nativeParts root = dirParts root ++ if root.getLast? == some slash then [.here] else [] := rfl
  rw [parts]
  split
  · exact walk_here enclosure.reaches.directory enclosure.reaches.found
  · rw [List.append_nil]
    exact enclosure.reaches.found

theorem Enclosure.deeper (enclosure : Enclosure env root top nodes) (spells : Spells root names path) (named : names ≠ [])
    (directory : nodes (placeOf top names) = some .directory) : Enclosure env path (placeOf top names) nodes where
  filled := spells.filled named
  whole := spells.whole
  rooted := enclosure.rooted
  mounted := by
    refine ⟨outsideOf_rooted enclosure.rooted, ?_⟩
    obtain ⟨here, apart⟩ := eq_of_outsideOf enclosure.mounted.base
    exact (outsideOf_apart (mt strictlyBelow_outer apart)).trans here
  reaches := by
    rw [start_of_sameStart spells.start, spells.parts]
    exact enclosure.reaches.deeper enclosure.rooted directory

theorem Enclosure.changed (enclosure : Enclosure env root top disk.nodes) {after : PayloadDisk} (rooted : Rooted after.nodes)
    (changes : ChangesBelow top disk after) : Enclosure env root top after.nodes where
  filled := enclosure.filled
  whole := enclosure.whole
  rooted := rooted
  mounted := by rw [changes.outsideOf_eq]; exact enclosure.mounted
  reaches := enclosure.reaches.changed changes

theorem Enclosure.mountedWhole (enclosure : Enclosure env root top nodes) : Mounted env.cwd nodes :=
  ⟨enclosure.rooted, (eq_of_outsideOf enclosure.mounted.base).1⟩

/-! ### Reading and writing below a directory -/

theorem isDirectory_iff {location : Location Bytes} : isDirectory nodes location = true ↔ nodes location = some .directory := by
  rw [isDirectory]
  split
  · rename_i directory
    simp [directory]
  · rename_i other
    simpa using other

theorem read_spelled (enclosure : Enclosure env root top nodes) (spells : Spells root names path) (named : names ≠ []) :
    env.read nodes path = some content ↔ nodes (placeOf top names) = some (.file content) := by
  obtain ⟨filled, start, parts⟩ := @Spells.native env root path names spells named
  have walked : walk nodes true env.links (env.start path) (nativeParts (cString path)) = descend nodes top names := by
    rw [start, parts]
    exact walk_below enclosure.reaches.unlinked enclosure.reaches.directory named enclosure.reaches.found
  have found := @descend_found_iff Bytes Bytes nodes top (placeOf top names) names enclosure.rooted enclosure.reaches.directory
  rw [FileEnv.read, filled, if_neg (by decide), readFile, walked]
  apply Iff.intro
  · intro read
    split at read
    · rename_i place reached
      obtain ⟨rfl, -⟩ := (descend_found_iff enclosure.rooted enclosure.reaches.directory).1 reached
      split at read
      · rename_i inside present
        rw [placeOf, present, Option.some.inj read]
      · cases read
    · cases read
  · intro present
    rw [found.2 ⟨rfl, _, present⟩]
    simp only [present]

theorem write_spelled (enclosure : Enclosure env root top disk.nodes) (spells : Spells root names path) (named : names ≠ [])
    (content : Bytes) : env.write path content disk = (disk, false) ∨
      env.write path content disk = (disk.put (placeOf top names) (.file content), true) := by
  obtain ⟨filled, start, parts⟩ := @Spells.native env root path names spells named
  have walked : walk disk.nodes true env.links (env.start path) (nativeParts (cString path)) = descend disk.nodes top names := by
    rw [start, parts]
    exact walk_below enclosure.reaches.unlinked enclosure.reaches.directory named enclosure.reaches.found
  rw [FileEnv.write, filled, if_neg (by decide), writeFile, walked]
  split
  · rename_i place reached
    obtain ⟨rfl, -⟩ := (descend_found_iff enclosure.rooted enclosure.reaches.directory).1 reached
    split
    · exact Or.inl rfl
    · exact Or.inr rfl
  · rename_i directory value missing
    rw [descend_missing missing]
    exact Or.inr rfl
  · exact Or.inl rfl

theorem copy_spelled (enclosure : Enclosure env root top disk.nodes) (spells : Spells root names path) (named : names ≠ [])
    (source : Bytes) : env.copy source path disk = (disk, false) ∨ ∃ content, env.read disk.nodes source = some content ∧
      env.copy source path disk = (disk.put (placeOf top names) (.file content), true) := by
  rw [FileEnv.copy]
  split
  · exact Or.inl rfl
  · rename_i filled
    rw [Bool.or_eq_true, not_or] at filled
    rw [copyFile]
    split
    · exact Or.inl rfl
    · rename_i content read
      split
      · exact Or.inl rfl
      · have written := write_spelled enclosure spells named content
        rw [FileEnv.write, if_neg filled.2] at written
        refine written.imp_right fun done => ⟨content, ?_, done⟩
        rw [FileEnv.read, if_neg filled.1, read]

theorem Enclosure.put (enclosure : Enclosure env root top disk.nodes) {content : Bytes} (named : names ≠ [])
    (extended : Extends env.cwd disk (disk.put (placeOf top names) (.file content))) :
    Enclosure env root top (disk.put (placeOf top names) (.file content)).nodes := by
  apply enclosure.changed extended.mounted.rooted
  exact put_changesBelow (strictlyBelow_append _ (by simpa using named) top) fun _ _ same => by cases same

end Walking

end ReqPack.Rqp
