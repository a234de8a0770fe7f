import ReqPack.Rqp.StateFiles

/-! # What persisting writes

`persistInstalledState` on a state root without links: it changes nothing but the state
directory, and each file there is the old one or the new one.
-/

namespace ReqPack.Rqp

open ReqPack.Data
open ReqPack.Data.Ascii
open ReqPack.Data.FileSystem

/-- The operating system lists names of files. -/
def FileEnv.ListsNames (env : FileEnv) : Prop := ∀ nodes location, ∀ name ∈ env.listing nodes location, FileName name

/-- The files of a state. -/
def StateContent (json : JsonText) (layout : RqPackageLayout) (source : RqStateSource) (pending : List ManifestEntry)
    (hooks : Bytes) (name content : Bytes) : Prop :=
  (name = bytes "metadata.json" ∧ content = rqMetadataJson json.escape layout.metadata) ∨
    (name = bytes "reqpack.lua" ∧ content = hooks) ∨
    (name = bytes "source.json" ∧ content = sourceJson json.escape source layout.identity) ∨
    (name = bytes "manifest.json" ∧ content = manifestJson json.escape pending)

/-- What is different behind an operation is in a directory, and its files have contents that may be there. -/
structure Filling (env : FileEnv) (path : Bytes) (home : Location Bytes) (allowed : Bytes → Bytes → Prop)
    (disk after : PayloadDisk) : Prop where
  enclosure : Enclosure env path home after.nodes
  changes : ChangesBelow home disk after
  grows : Grows disk.nodes after.nodes
  files : ∀ name content, after.nodes (name :: home) = some (.file content) →
    disk.nodes (name :: home) = some (.file content) ∨ allowed name content

section Filling

variable {env : FileEnv} {path name content : Bytes} {home : Location Bytes} {allowed : Bytes → Bytes → Prop}
variable {disk middle after : PayloadDisk} {names : List Bytes}

theorem Filling.refl (enclosure : Enclosure env path home disk.nodes) : Filling env path home allowed disk disk where
  enclosure := enclosure
  changes := ChangesBelow.refl home disk
  grows := Grows.refl _
  files _ _ found := Or.inl found

theorem Filling.trans (first : Filling env path home allowed disk middle) (second : Filling env path home allowed middle after) :
    Filling env path home allowed disk after where
  enclosure := second.enclosure
  changes := first.changes.trans second.changes
  grows := first.grows.trans second.grows
  files name content found := by
    obtain kept | new := second.files name content found
    · exact first.files name content kept
    · exact Or.inr new

theorem Filling.keeps (filling : Filling env path home allowed disk after)
    (present : disk.nodes (name :: home) = some (.file content)) (only : ∀ other, allowed name other → other = content) :
    after.nodes (name :: home) = some (.file content) := by
  obtain ⟨later, found⟩ := filling.grows.file _ content present
  obtain kept | new := filling.files name later found
  · rw [present] at kept
    rw [found, kept]
  · rw [found, only later new]

theorem Filling.put (enclosure : Enclosure env path home disk.nodes) (named : names ≠ [])
    (extended : Extends env.cwd disk (disk.put (placeOf home names) (.file content)))
    (allows : ∀ name, names = [name] → allowed name content) :
    Filling env path home allowed disk (disk.put (placeOf home names) (.file content)) where
  enclosure := enclosure.put named extended
  changes := put_changesBelow (strictlyBelow_append _ (by simpa using named) home) fun _ _ same => by cases same
  grows := extended.grows
  files name inside found := by
    rw [put_nodes] at found
    split at found
    · rename_i same
      cases found
      have single : names = [name] := by
        rw [placeOf, List.cons_eq_append_iff] at same
        obtain ⟨none, -⟩ | ⟨rest, reversed, home⟩ := same
        · exact absurd (List.reverse_eq_nil_iff.1 none) named
        · have last : rest = [] := List.append_left_eq_self.1 home.symm
          rw [last, List.reverse_eq_iff] at reversed
          exact reversed
      exact Or.inr (allows name single)
    · exact Or.inl found

theorem Filling.write (enclosure : Enclosure env path home disk.nodes) {file : Bytes} (spells : Spells path names file)
    (named : names ≠ []) (allows : ∀ name, names = [name] → allowed name content) :
    Filling env path home allowed disk (env.write file content disk).1 := by
  have extended := FileEnv.write_extends enclosure.mountedWhole file content
  obtain failed | done := write_spelled enclosure spells named content
  · rw [failed]
    exact Filling.refl enclosure
  · rw [done] at extended ⊢
    exact Filling.put enclosure named extended allows

theorem Filling.copy (enclosure : Enclosure env path home disk.nodes) {source file : Bytes} (spells : Spells path names file)
    (named : names ≠ [])
    (allows : ∀ content, env.read disk.nodes source = some content → ∀ name, names = [name] → allowed name content) :
    Filling env path home allowed disk (env.copy source file disk).1 := by
  have extended := FileEnv.copy_extends enclosure.mountedWhole source file
  obtain failed | ⟨content, read, done⟩ := copy_spelled enclosure spells named source
  · rw [failed]
    exact Filling.refl enclosure
  · rw [done] at extended ⊢
    exact Filling.put enclosure named extended (allows content read)

theorem Persisted.andThen_filling {first : Persisted} {next : PayloadDisk → Persisted}
    (begun : Filling env path home allowed disk first.1)
    (further : first.2 = .done → Filling env path home allowed first.1 (next first.1).1) :
    Filling env path home allowed disk (first.andThen next).1 := by
  rw [Persisted.andThen]
  split
  · rename_i done
    exact begun.trans (further done)
  · exact begun

end Filling

section Steps

variable {env : FileEnv} {json : JsonText} {layout : RqPackageLayout} {source : RqStateSource}
variable {pending : List ManifestEntry} {home top : Location Bytes} {disk : PayloadDisk} {hooks path content root : Bytes}
variable {names : List Bytes} {nodes : Nodes Bytes Bytes}

theorem read_kept {other : Nodes Bytes Bytes} (kept : ∀ location node, nodes location = some node → other location = some node)
    (read : env.read nodes path = some content) : env.read other path = some content := by
  rw [FileEnv.read] at read ⊢
  split at read
  · cases read
  · rename_i filled
    rw [if_neg filled, readFile]
    rw [readFile] at read
    split at read
    · rename_i place found
      rw [walk_grows (grows_of_kept kept) found]
      split at read
      · rename_i inside present
        simp only [kept _ _ present]
        exact read
      · cases read
    · cases read

theorem read_outside (read : env.read (outsideOf top nodes) path = some content) : env.read nodes path = some content :=
  read_kept (fun _ _ present => (eq_of_outsideOf present).1) read

/-- The part of `persistInstalledState` behind the directories. -/
def fillState (env : FileEnv) (json : JsonText) (layout : RqPackageLayout) (source : RqStateSource)
    (pending : List ManifestEntry) (disk : PayloadDisk) : Persisted :=
  (orEnd .refused (env.write (stateFile layout "metadata.json") (rqMetadataJson json.escape layout.metadata) disk)).andThen
    fun disk =>
  (orEnd .thrown (env.copy (joinPath layout.controlDir (bytes "reqpack.lua")) (stateFile layout "reqpack.lua")
    disk)).andThen fun disk =>
  (copyScriptsDirectory env layout disk).andThen fun disk =>
  (orEnd .refused (env.write (stateFile layout "source.json") (sourceJson json.escape source layout.identity)
    disk)).andThen fun disk =>
  orEnd .refused (env.write (stateFile layout "manifest.json") (manifestJson json.escape pending) disk)

theorem persistInstalledState_eq (env : FileEnv) (json : JsonText) (layout : RqPackageLayout) (source : RqStateSource)
    (pending : List ManifestEntry) (disk : PayloadDisk) :
    persistInstalledState env json layout source pending disk =
      (orEnd .thrown (env.makeDirectories (stateFile layout "scripts") disk)).andThen
        (fillState env json layout source pending) := rfl

theorem fileName_of_text {name : Bytes} (plain : isDirectoryName name = true) (whole : name.contains 0 = false) : FileName name :=
  ⟨plain, by simpa using whole⟩

theorem fileName_scripts : FileName (bytes "scripts") := fileName_of_text (by decide) (by decide)

theorem copyScripts_filling {listed : List Bytes} (fileNames : ∀ name ∈ listed, FileName name)
    (enclosure : Enclosure env layout.stateDir home disk.nodes) :
    Filling env layout.stateDir home (StateContent json layout source pending hooks) disk (copyScripts env layout listed disk).1 := by
  induction listed generalizing disk with
  | nil => exact Filling.refl enclosure
  | cons name listed ih =>
      rw [List.forall_mem_cons] at fileNames
      rw [copyScripts]
      split
      · exact ih fileNames.2 enclosure
      · have scripts := spells_joinPath enclosure.whole fileName_scripts
        have copied : Filling env layout.stateDir home (StateContent json layout source pending hooks) disk
            (env.copy (joinPath (scriptsDir layout) name) (joinPath (stateFile layout "scripts") name) disk).1 :=
          Filling.copy enclosure (scripts.join fileNames.1) (by simp) fun _ _ other same => by simp at same
        exact Persisted.andThen_filling copied fun _ => ih fileNames.2 copied.enclosure

theorem copyScriptsDirectory_filling (lists : env.ListsNames) (enclosure : Enclosure env layout.stateDir home disk.nodes) :
    Filling env layout.stateDir home (StateContent json layout source pending hooks) disk (copyScriptsDirectory env layout disk).1 := by
  rw [copyScriptsDirectory]
  split
  · split
    · exact copyScripts_filling (lists _ _) enclosure
    · exact Filling.refl enclosure
  · exact Filling.refl enclosure

theorem stateFile_spells (enclosure : Enclosure env layout.stateDir home nodes) {name : String}
    (plain : isDirectoryName (bytes name) = true) (whole : (bytes name).contains 0 = false) :
    Spells layout.stateDir [bytes name] (stateFile layout name) :=
  spells_joinPath enclosure.whole (fileName_of_text plain whole)

theorem metadata_filling (enclosure : Enclosure env layout.stateDir home disk.nodes) :
    Filling env layout.stateDir home (StateContent json layout source pending hooks) disk
      (env.write (stateFile layout "metadata.json") (rqMetadataJson json.escape layout.metadata) disk).1 := by
  refine Filling.write enclosure (stateFile_spells enclosure (by decide) (by decide)) (by simp) fun name same => ?_
  exact Or.inl ⟨(List.singleton_inj.1 same).symm, rfl⟩

theorem hooks_filling (enclosure : Enclosure env layout.stateDir home disk.nodes)
    (hooked : env.read disk.nodes (joinPath layout.controlDir (bytes "reqpack.lua")) = some hooks) :
    Filling env layout.stateDir home (StateContent json layout source pending hooks) disk
      (env.copy (joinPath layout.controlDir (bytes "reqpack.lua")) (stateFile layout "reqpack.lua") disk).1 := by
  refine Filling.copy enclosure (stateFile_spells enclosure (by decide) (by decide)) (by simp) fun content read name same => ?_
  rw [hooked] at read
  exact Or.inr (Or.inl ⟨(List.singleton_inj.1 same).symm, (Option.some.inj read).symm⟩)

theorem source_filling (enclosure : Enclosure env layout.stateDir home disk.nodes) :
    Filling env layout.stateDir home (StateContent json layout source pending hooks) disk
      (env.write (stateFile layout "source.json") (sourceJson json.escape source layout.identity) disk).1 := by
  refine Filling.write enclosure (stateFile_spells enclosure (by decide) (by decide)) (by simp) fun name same => ?_
  exact Or.inr (Or.inr (Or.inl ⟨(List.singleton_inj.1 same).symm, rfl⟩))

theorem manifest_filling (enclosure : Enclosure env layout.stateDir home disk.nodes) :
    Filling env layout.stateDir home (StateContent json layout source pending hooks) disk
      (env.write (stateFile layout "manifest.json") (manifestJson json.escape pending) disk).1 := by
  refine Filling.write enclosure (stateFile_spells enclosure (by decide) (by decide)) (by simp) fun name same => ?_
  exact Or.inr (Or.inr (Or.inr ⟨(List.singleton_inj.1 same).symm, rfl⟩))

theorem Filling.hooked {allowed : Bytes → Bytes → Prop} {after : PayloadDisk} (filling : Filling env layout.stateDir home allowed disk after)
    (hooked : env.read (outsideOf home disk.nodes) path = some content) :
    env.read (outsideOf home after.nodes) path = some content := by
  rw [filling.changes.outsideOf_eq, hooked]

theorem fillState_filling (lists : env.ListsNames) (enclosure : Enclosure env layout.stateDir home disk.nodes)
    (hooked : env.read (outsideOf home disk.nodes) (joinPath layout.controlDir (bytes "reqpack.lua")) = some hooks) :
    Filling env layout.stateDir home (StateContent json layout source pending hooks) disk
      (fillState env json layout source pending disk).1 := by
  have metadata := @metadata_filling env json layout source pending home disk hooks enclosure
  refine Persisted.andThen_filling metadata fun _ => ?_
  have script := @hooks_filling env json layout source pending home _ hooks metadata.enclosure
    (read_outside (metadata.hooked hooked))
  refine Persisted.andThen_filling script fun _ => ?_
  have scripts := @copyScriptsDirectory_filling env json layout source pending home _ hooks lists script.enclosure
  refine Persisted.andThen_filling scripts fun _ => ?_
  have origin := @source_filling env json layout source pending home _ hooks scripts.enclosure
  refine Persisted.andThen_filling origin fun _ => ?_
  exact manifest_filling origin.enclosure

theorem StateContent.unique {name other : Bytes} (first : StateContent json layout source pending hooks name content)
    (second : StateContent json layout source pending hooks name other) : other = content := by
  have apart : bytes "metadata.json" ≠ bytes "reqpack.lua" ∧ bytes "metadata.json" ≠ bytes "source.json" ∧
      bytes "metadata.json" ≠ bytes "manifest.json" ∧ bytes "reqpack.lua" ≠ bytes "source.json" ∧
      bytes "reqpack.lua" ≠ bytes "manifest.json" ∧ bytes "source.json" ≠ bytes "manifest.json" := by decide
  rw [StateContent] at first second
  grind

theorem write_present (enclosure : Enclosure env path home disk.nodes) {name file : Bytes} (spells : Spells path [name] file)
    (written : (env.write file content disk).2 = true) :
    (env.write file content disk).1.nodes (name :: home) = some (.file content) := by
  obtain failed | done := write_spelled enclosure spells (List.cons_ne_nil _ _) content
  · rw [failed] at written
    cases written
  · rw [done]
    exact (put_nodes _ _).trans (if_pos rfl)

theorem copy_present (enclosure : Enclosure env path home disk.nodes) {name file original : Bytes} (spells : Spells path [name] file)
    (read : env.read disk.nodes original = some content) (copied : (env.copy original file disk).2 = true) :
    (env.copy original file disk).1.nodes (name :: home) = some (.file content) := by
  obtain failed | ⟨other, again, done⟩ := copy_spelled enclosure spells (List.cons_ne_nil _ _) original
  · rw [failed] at copied
    cases copied
  · rw [read] at again
    cases again
    rw [done]
    exact (put_nodes _ _).trans (if_pos rfl)

theorem fillState_done (lists : env.ListsNames) (enclosure : Enclosure env layout.stateDir home disk.nodes)
    (hooked : env.read (outsideOf home disk.nodes) (joinPath layout.controlDir (bytes "reqpack.lua")) = some hooks)
    (done : (fillState env json layout source pending disk).2 = .done) :
    ∀ name content, StateContent json layout source pending hooks name content →
      (fillState env json layout source pending disk).1.nodes (name :: home) = some (.file content) := by
  have kept : ∀ {disk after : PayloadDisk} {name content : Bytes},
      Filling env layout.stateDir home (StateContent json layout source pending hooks) disk after →
      StateContent json layout source pending hooks name content →
      disk.nodes (name :: home) = some (.file content) → after.nodes (name :: home) = some (.file content) :=
    fun filling listed present => filling.keeps present fun _ other => listed.unique other
  have metadata := @metadata_filling env json layout source pending home disk hooks enclosure
  let Written (run : Persisted) := ∀ name content, StateContent json layout source pending hooks name content →
    run.1.nodes (name :: home) = some (.file content)
  refine Persisted.andThen_ended (P := Written) done fun begun done => ?_
  have first := write_present enclosure (stateFile_spells enclosure (by decide) (by decide)) ((orEnd_done (by decide)).1 begun)
  have script := @hooks_filling env json layout source pending home _ hooks metadata.enclosure
    (read_outside (metadata.hooked hooked))
  refine Persisted.andThen_ended (P := Written) done fun begun done => ?_
  have second := copy_present metadata.enclosure (stateFile_spells metadata.enclosure (by decide) (by decide))
    (read_outside (metadata.hooked hooked)) ((orEnd_done (by decide)).1 begun)
  have scripts := @copyScriptsDirectory_filling env json layout source pending home _ hooks lists script.enclosure
  refine Persisted.andThen_ended (P := Written) done fun _ done => ?_
  have origin := @source_filling env json layout source pending home _ hooks scripts.enclosure
  refine Persisted.andThen_ended (P := Written) done fun begun done => ?_
  have third := write_present scripts.enclosure (stateFile_spells scripts.enclosure (by decide) (by decide))
    ((orEnd_done (by decide)).1 begun)
  have last := @manifest_filling env json layout source pending home _ hooks origin.enclosure
  have fourth := write_present origin.enclosure (stateFile_spells origin.enclosure (by decide) (by decide))
    ((orEnd_done (by decide)).1 done)
  intro name content listed
  obtain ⟨rfl, rfl⟩ | ⟨rfl, rfl⟩ | ⟨rfl, rfl⟩ | ⟨rfl, rfl⟩ := id listed
  · exact kept (((script.trans scripts).trans origin).trans last) listed first
  · exact kept ((scripts.trans origin).trans last) listed second
  · exact kept last listed third
  · exact fourth

end Steps

/-! ## The whole of it -/

/-- What `persistInstalledState` leaves of a disk on which the state root is. -/
structure PersistEffect (json : JsonText) (layout : RqPackageLayout) (source : RqStateSource) (pending : List ManifestEntry)
    (hooks : Bytes) (top home : Location Bytes) (disk : PayloadDisk) (run : Persisted) : Prop where
  rooted : Rooted run.1.nodes
  changes : ChangesBelow top disk run.1
  /-- but for directories, nothing is new beside the state directory -/
  beside : ∀ location, ¬ StrictlyBelow home location → run.1.nodes location = disk.nodes location ∨
    (disk.nodes location = none ∧ run.1.nodes location = some .directory)
  files : ∀ name content, run.1.nodes (name :: home) = some (.file content) →
    disk.nodes (name :: home) = some (.file content) ∨ StateContent json layout source pending hooks name content
  done : run.2 = .done → ∀ name content, StateContent json layout source pending hooks name content →
    run.1.nodes (name :: home) = some (.file content)

section Whole

variable {env : FileEnv} {json : JsonText} {layout : RqPackageLayout} {source : RqStateSource}
variable {pending : List ManifestEntry} {top : Location Bytes} {disk : PayloadDisk} {hooks path root : Bytes} {names : List Bytes}

theorem makeDirectories_spelled (enclosure : Enclosure env root top disk.nodes) (spells : Spells root names path)
    (named : names ≠ []) :
    ChangesBelow top disk (env.makeDirectories path disk).1 ∧ OnlyDirectories disk (env.makeDirectories path disk).1 ∧
      Enclosure env root top (env.makeDirectories path disk).1.nodes := by
  have extended := FileEnv.makeDirectories_extends enclosure.mountedWhole path
  obtain ⟨filled, start, parts⟩ := @Spells.native env root path names spells named
  have changes : ChangesBelow top disk (env.makeDirectories path disk).1 := by
    rw [FileEnv.makeDirectories, filled, if_neg (by decide), start, parts]
    exact createDirectories_changesBelow enclosure.reaches names
  refine ⟨changes, ?_, enclosure.changed extended.mounted.rooted changes⟩
  rw [FileEnv.makeDirectories, filled, if_neg (by decide)]
  exact ensureDirectories_onlyDirectories _

theorem makeDirectories_made (enclosure : Enclosure env root top disk.nodes) (spells : Spells root names path)
    (named : names ≠ []) (made : (env.makeDirectories path disk).2 = true) :
    ∃ node, (env.makeDirectories path disk).1.nodes (placeOf top names) = some node := by
  obtain ⟨place, found⟩ := FileEnv.makeDirectories_present enclosure.mountedWhole made
  have after := (makeDirectories_spelled enclosure spells named).2.2
  obtain ⟨rfl, present⟩ := (resolve_found_iff after spells named).1 found
  exact present

theorem persistInstalledState_effect (lists : env.ListsNames) (enclosure : Enclosure env root top disk.nodes)
    (spells : Spells root names layout.stateDir) (named : names ≠ [])
    (hooked : env.read (outsideOf top disk.nodes) (joinPath layout.controlDir (bytes "reqpack.lua")) = some hooks) :
    PersistEffect json layout source pending hooks top (placeOf top names) disk
      (persistInstalledState env json layout source pending disk) := by
  have scripts := spells.join fileName_scripts
  obtain ⟨changes, onlyDirectories, after⟩ := makeDirectories_spelled enclosure scripts (by simp)
  have plain : ∀ {location content}, (env.makeDirectories (stateFile layout "scripts") disk).1.nodes location = some (.file content) →
      disk.nodes location = some (.file content) := by
    intro location content found
    obtain same | ⟨-, made⟩ := onlyDirectories location
    · exact same ▸ found
    · cases made.symm.trans found
  rw [persistInstalledState_eq, Persisted.andThen]
  cases made : (env.makeDirectories (stateFile layout "scripts") disk).2 with
  | false =>
      simp only [orEnd, stateFile] at made ⊢
      simp only [made]
      exact ⟨after.rooted, changes, fun location _ => onlyDirectories location, fun name content found => Or.inl (plain found),
        fun done => by cases done⟩
  | true =>
      have directory : (env.makeDirectories (stateFile layout "scripts") disk).1.nodes (placeOf top names) = some .directory := by
        obtain ⟨node, present⟩ := makeDirectories_made enclosure scripts (by simp) made
        rw [placeOf, List.reverse_append] at present
        exact after.rooted.parent _ _ _ present
      have inner := after.deeper spells named directory
      have outside : env.read (outsideOf (placeOf top names) (env.makeDirectories (stateFile layout "scripts") disk).1.nodes)
          (joinPath layout.controlDir (bytes "reqpack.lua")) = some hooks := by
        rw [← changes.outsideOf_eq] at hooked
        exact read_kept (fun _ _ => outsideOf_kept) hooked
      have filling := @fillState_filling env json layout source pending _ _ hooks lists inner outside
      have filled := @fillState_done env json layout source pending _ _ hooks lists inner outside
      simp only [orEnd, made]
      refine ⟨filling.enclosure.rooted, changes.trans filling.changes.outer, fun location apart => ?_,
        fun name content found => (filling.files name content found).imp_left plain, filled⟩
      have same := filling.changes.outside location apart
      obtain kept | new := onlyDirectories location
      · exact Or.inl (same.trans kept)
      · exact Or.inr ⟨new.1, same.trans new.2⟩

end Whole

end ReqPack.Rqp
