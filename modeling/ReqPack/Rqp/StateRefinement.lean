import ReqPack.Rqp.StateListing

/-! # The store on disk refines the abstract store

Every run of persisting and removing on a state root is a run of the abstract store, and what
is listed afterwards is what the abstract store lists.
-/

namespace ReqPack.Rqp

open ReqPack.Data
open ReqPack.Data.Ascii
open ReqPack.Data.FileSystem

/-! ## The source of a package -/

section Source

variable {readTree : Bytes → Option Ptree} {escape : Bytes → Bytes} {source : RqStateSource} {identity : Bytes}

theorem source_text (key : String) : (sourceDocument source identity).tree.text key =
    (((([("source", .text source.source), ("path", .text source.path), ("repository", .text source.repository),
      ("identity", .text identity)] ++ if source.requestName.isEmpty then [] else [("requestName", .text source.requestName)] :
      List (String × Json)).lookup key).map Json.tree)).map Ptree.data := by
  rw [Ptree.text, sourceDocument, child_object]

theorem parse_sourceJson (reads : ReadsJson readTree escape (sourceDocument source identity)) (origin : source.source ≠ [])
    (path : source.path ≠ []) (named : identity ≠ []) :
    RqpStateStore.parseSourceJson readTree (sourceJson escape source identity) = .ok (source, identity) := by
  have required : ∀ (key : String) (value : Bytes), (sourceDocument source identity).tree.text key = some value → value ≠ [] →
      RqpStateStore.requiredString (sourceDocument source identity).tree key = .ok value := by
    intro key value written filled
    rw [RqpStateStore.requiredString, written]
    simp only [List.isEmpty_eq_false_iff.2 filled, Bool.false_eq_true, if_false]
  have repository : (sourceDocument source identity).tree.text "repository" = some source.repository := by
    rw [source_text]
    rfl
  have request : ((sourceDocument source identity).tree.text "requestName").getD [] = source.requestName := by
    rw [source_text]
    split
    · rename_i empty
      rw [List.isEmpty_iff.1 empty]
      rfl
    · rfl
  rw [RqpStateStore.parseSourceJson, sourceJson, reads]
  simp only [RqpStateStore.parseSourceTree]
  rw [required "source" source.source (by rw [source_text]; rfl) origin, required "path" source.path (by rw [source_text]; rfl) path,
    required "identity" identity (by rw [source_text]; rfl) named, repository, request]
  rfl

end Source

/-! ## Steps -/

/-- What is done to the store, and for which package. -/
inductive StoreCall
  | persist (package : RqpInstalledPackage)
  | remove (package : RqpInstalledPackage)

/-- A call of the abstract store and its answer.  A call that fails may leave the state as it was, spoil it, or leave
the state of another package that has the same directory. -/
inductive StateStep : RqpState → StoreCall → Bool → RqpState → Prop
  | persisted (state : RqpState) (package : RqpInstalledPackage) : StateStep state (.persist package) true (state.write package)
  | unfinished (state : RqpState) {package other : RqpInstalledPackage}
      (same : stateDir other.metadata = stateDir package.metadata) : StateStep state (.persist package) false (state.write other)
  | spoiled (state : RqpState) (package : RqpInstalledPackage) :
      StateStep state (.persist package) false (state.without (stateDir package.metadata))
  | removed (state : RqpState) (package : RqpInstalledPackage) (answer : Bool) :
      StateStep state (.remove package) answer (state.without (stateDir package.metadata))
  | kept (state : RqpState) (package : RqpInstalledPackage) : StateStep state (.remove package) false state

/-- A layout whose state can be written below the root and read again. -/
structure Persistable (env : FileEnv) (reader : StateReader) (root : Bytes) (top : Location Bytes) (disk : PayloadDisk)
    (layout : RqPackageLayout) (source : RqStateSource) : Prop where
  names : DirectoryNames (stateDir layout.metadata.packageId)
  stateDir : layout.stateDir = packageStateDir root layout.metadata.packageId
  identity : layout.identity = rqPackageIdentity layout.metadata.packageId
  /-- the metadata was read from an archive -/
  metadata : ∃ content, rqParseMetadataJson reader.json.readTree content = .ok layout.metadata
  readsMetadata : ReadsJson reader.json.readTree reader.json.escape (metadataDocument layout.metadata)
  readsSource : ReadsJson reader.json.readTree reader.json.escape (sourceDocument source layout.identity)
  origin : source.source ≠ []
  path : source.path ≠ []
  /-- the hooks stand outside the state root, where the archive was unpacked -/
  hooks : ∃ content hooks, env.read (outsideOf top disk.nodes) (joinPath layout.controlDir (bytes "reqpack.lua")) = some content ∧
    reader.parseHooks content = .ok hooks

/-- A call on disk and its answer; the operating system lists what is there. -/
inductive DiskStep (env : FileEnv) (reader : StateReader) (root : Bytes) (top : Location Bytes) :
    PayloadDisk → StoreCall → Bool → PayloadDisk → Prop
  | persist {disk : PayloadDisk} {layout : RqPackageLayout} {source : RqStateSource} {pending : List ManifestEntry}
      (ready : Persistable env reader root top disk layout source)
      (lists : env.Lists (persistInstalledState env reader.json layout source pending disk).1.nodes) :
      DiskStep env reader root top disk (.persist ⟨layout.metadata.packageId, source⟩)
        ((persistInstalledState env reader.json layout source pending disk).2 == .done)
        (persistInstalledState env reader.json layout source pending disk).1
  | remove {disk : PayloadDisk} {listed : List LoadedState} {installed : LoadedState} {stuck : List (Location Bytes)}
      (found : RqpStateStore.listInstalled env reader disk.nodes root = .ok listed) (member : installed ∈ listed)
      (meanwhile : env.Lists (env.removeAll stuck installed.stateDir disk).1.nodes)
      (lists : env.Lists (RqpStateStore.removeInstalledState env stuck installed disk).1.nodes) :
      DiskStep env reader root top disk (.remove installed.package)
        (RqpStateStore.removeInstalledState env stuck installed disk).2
        (RqpStateStore.removeInstalledState env stuck installed disk).1

section Steps

variable {env : FileEnv} {reader : StateReader} {root : Bytes} {top : Location Bytes} {disk after : PayloadDisk}
variable {state : RqpState} {layout : RqPackageLayout} {source : RqStateSource} {pending : List ManifestEntry}
variable {directory : Bytes × Bytes} {package : RqpInstalledPackage}

/-- The store with a package in a directory, or with none in it. -/
def RqpState.filled (state : RqpState) (directory : Bytes × Bytes) : Option RqpInstalledPackage → RqpState
  | some package => state.write package
  | none => state.without directory

theorem mem_filled {entry : Option RqpInstalledPackage} (names : DirectoryNames directory)
    (placed : ∀ other ∈ entry, stateDir other.metadata = directory) :
    package ∈ (state.filled directory entry).installed ↔
      entry = some package ∨ (package ∈ state.installed ∧ stateDir package.metadata ≠ directory) := by
  cases entry with
  | none =>
      rw [RqpState.filled, mem_without]
      simp
  | some other =>
      have same := placed other rfl
      have plain : (isDirectoryName other.metadata.name && isDirectoryName other.identity) = true := by
        rw [Bool.and_eq_true]
        have parts := Prod.mk.inj (same : (other.metadata.name, other.identity) = (directory.1, directory.2))
        have second : other.identity = directory.2 := parts.2
        rw [parts.1, second]
        exact ⟨names.first.plain, names.second.plain⟩
      rw [RqpState.filled, RqpState.write, if_pos plain, List.mem_cons, mem_without, same, Option.some.injEq, eq_comm]

theorem Represents.refill (represents : Represents env reader root top disk.nodes state) (names : DirectoryNames directory)
    (rooted : Rooted after.nodes) (changes : ChangesBelow top disk after) (lists : env.Lists after.nodes)
    (sound : SoundFiles reader after.nodes (stateHome top directory) directory)
    (beside : ∀ other, other ≠ directory → ∀ name content,
      disk.nodes (name :: stateHome top other) = some (.file content) ↔ after.nodes (name :: stateHome top other) = some (.file content)) :
    ∃ entry, RqpStateStore.loadInstalled env reader after.nodes (statePath root directory) = .ok entry ∧
      (∀ installed ∈ entry, stateDir installed.package.metadata = directory) ∧
      Represents env reader root top after.nodes (state.filled directory (entry.map LoadedState.package)) := by
  have enclosure := represents.enclosure.changed rooted changes
  obtain ⟨entry, loaded, placed⟩ := @loadInstalled_sound env reader root top after.nodes directory enclosure names sound
  have named : ∀ other ∈ entry.map LoadedState.package, stateDir other.metadata = directory := by
    intro other member
    obtain ⟨installed, inside, rfl⟩ := Option.mem_map.1 member
    exact (placed installed inside).named
  refine ⟨entry, loaded, fun installed member => (placed installed member).named, enclosure, lists, ?_, ?_, ?_⟩
  · intro other otherNames
    by_cases same : other = directory
    · rw [same]
      exact sound
    · have before := represents.sound other otherNames
      exact ⟨fun content found => before.metadata content ((beside other same _ _).2 found),
        fun content found => before.hooks content ((beside other same _ _).2 found),
        fun content found => before.source content ((beside other same _ _).2 found)⟩
  · intro package member
    obtain chosen | ⟨before, -⟩ := (mem_filled names named).1 member
    · rw [named package chosen]
      exact names
    · exact represents.plain package before
  · intro other otherNames package
    rw [mem_filled names named]
    by_cases same : other = directory
    · rw [same, loaded]
      apply Iff.intro
      · rintro ⟨chosen | ⟨-, apart⟩, inside⟩
        · obtain ⟨installed, present, rfl⟩ := Option.map_eq_some_iff.1 chosen
          exact ⟨installed, by rw [present], rfl⟩
        · exact absurd inside apart
      · rintro ⟨installed, present, rfl⟩
        cases present
        exact ⟨Or.inl rfl, named _ rfl⟩
    · rw [loadInstalled_congr represents.enclosure enclosure otherNames (beside other same),
        ← represents.installed other otherNames package]
      apply Iff.intro
      · rintro ⟨chosen | ⟨before, -⟩, inside⟩
        · exact absurd (inside.symm.trans (named package chosen)) same
        · exact ⟨before, inside⟩
      · rintro ⟨before, inside⟩
        exact ⟨Or.inr ⟨before, inside ▸ same⟩, inside⟩

theorem rqPackageIdentity_ne_nil (package : RqPackageId) : rqPackageIdentity package ≠ [] := by
  have mark : bytes "@" ≠ [] := by decide
  simp [rqPackageIdentity, mark]

theorem not_below_home {other : Bytes × Bytes} (apart : other ≠ directory) (name : Bytes) :
    ¬ StrictlyBelow (stateHome top directory) (name :: stateHome top other) ∧ ¬ stateHome top directory <:+ name :: stateHome top other := by
  have outside : ¬ stateHome top directory <:+ name :: stateHome top other := by
    intro below
    obtain same | inner := List.suffix_cons_iff.1 below
    · have longer := congrArg List.length same
      simp [stateHome] at longer
    · have same := inner.eq_of_length rfl
      rw [stateHome, stateHome, List.cons.injEq, List.cons.injEq] at same
      exact apart (Prod.ext same.2.1.symm same.1.symm)
  exact ⟨fun below => outside below.1, outside⟩

theorem sound_of_contents {hooks : Bytes} {hookTable : List (Bytes × Bytes)} (ready : Persistable env reader root top disk layout source)
    (hooked : reader.parseHooks hooks = .ok hookTable) (before : SoundFiles reader disk.nodes (stateHome top directory) directory)
    (named : directory = stateDir layout.metadata.packageId)
    (files : ∀ name content, after.nodes (name :: stateHome top directory) = some (.file content) →
      disk.nodes (name :: stateHome top directory) = some (.file content) ∨
        StateContent reader.json layout source pending hooks name content) :
    SoundFiles reader after.nodes (stateHome top directory) directory := by
  obtain ⟨archive, parsed⟩ := ready.metadata
  have metadata := parse_metadataJson (accepted_of_parse parsed) ready.readsMetadata
  have origin := parse_sourceJson ready.readsSource ready.origin ready.path (ready.identity ▸ rqPackageIdentity_ne_nil _)
  refine ⟨fun content found => ?_, fun content found => ?_, fun content found => ?_⟩
  · obtain kept | new := files _ content found
    · exact before.metadata content kept
    · have written : content = rqMetadataJson reader.json.escape layout.metadata := StateContent.unique (Or.inl ⟨rfl, rfl⟩) new
      rw [written]
      exact ⟨_, metadata, named.symm⟩
  · obtain kept | new := files _ content found
    · exact before.hooks content kept
    · have written : content = hooks := StateContent.unique (Or.inr (Or.inl ⟨rfl, rfl⟩)) new
      rw [written]
      exact ⟨_, hooked⟩
  · obtain kept | new := files _ content found
    · exact before.source content kept
    · have written : content = sourceJson reader.json.escape source layout.identity :=
        StateContent.unique (Or.inr (Or.inr (Or.inl ⟨rfl, rfl⟩))) new
      rw [written]
      exact ⟨_, origin⟩

theorem loaded_of_contents {hooks : Bytes} {hookTable : List (Bytes × Bytes)} {nodes : Nodes Bytes Bytes}
    (ready : Persistable env reader root top disk layout source) (hooked : reader.parseHooks hooks = .ok hookTable)
    (enclosure : Enclosure env root top nodes)
    (files : ∀ name content, StateContent reader.json layout source pending hooks name content →
      nodes (name :: stateHome top (stateDir layout.metadata.packageId)) = some (.file content)) :
    ∃ installed, RqpStateStore.loadInstalled env reader nodes (statePath root (stateDir layout.metadata.packageId)) =
      .ok (some installed) ∧ installed.package = ⟨layout.metadata.packageId, source⟩ := by
  obtain ⟨archive, parsed⟩ := ready.metadata
  have metadata := parse_metadataJson (accepted_of_parse parsed) ready.readsMetadata
  have origin := parse_sourceJson ready.readsSource ready.origin ready.path (ready.identity ▸ rqPackageIdentity_ne_nil _)
  rw [loadInstalled_eq enclosure ready.names, fileAt_eq_some.2 (files _ _ (Or.inl ⟨rfl, rfl⟩)),
    fileAt_eq_some.2 (files _ _ (Or.inr (Or.inl ⟨rfl, rfl⟩))), fileAt_eq_some.2 (files _ _ (Or.inr (Or.inr (Or.inl ⟨rfl, rfl⟩)))),
    fileAt_eq_some.2 (files _ _ (Or.inr (Or.inr (Or.inr ⟨rfl, rfl⟩))))]
  refine ⟨⟨{ layout.metadata with binaries := [] }, source, layout.identity, hookTable, rqPackageIdentity layout.metadata.packageId,
    statePath root (stateDir layout.metadata.packageId)⟩, ?_, rfl⟩
  simp only [RqpStateStore.loadFiles, RqpStateStore.parseState, metadata, origin, hooked]
  rfl

theorem persist_refines (represents : Represents env reader root top disk.nodes state) (listsNames : env.ListsNames)
    (ready : Persistable env reader root top disk layout source)
    (lists : env.Lists (persistInstalledState env reader.json layout source pending disk).1.nodes) :
    ∃ next, StateStep state (.persist ⟨layout.metadata.packageId, source⟩)
        ((persistInstalledState env reader.json layout source pending disk).2 == .done) next ∧
      Represents env reader root top (persistInstalledState env reader.json layout source pending disk).1.nodes next ∧
      ChangesBelow top disk (persistInstalledState env reader.json layout source pending disk).1 := by
  obtain ⟨hooks, hookTable, read, hooked⟩ := ready.hooks
  have enclosure := represents.enclosure
  have spells : Spells root [(stateDir layout.metadata.packageId).1, (stateDir layout.metadata.packageId).2] layout.stateDir := by
    rw [ready.stateDir]
    exact statePath_spells enclosure.whole ready.names
  have effect : PersistEffect reader.json layout source pending hooks top (stateHome top (stateDir layout.metadata.packageId)) disk
      (persistInstalledState env reader.json layout source pending disk) :=
    persistInstalledState_effect listsNames enclosure spells (by simp) read
  obtain ⟨entry, loaded, named, next⟩ := represents.refill ready.names effect.rooted effect.changes lists
    (sound_of_contents ready hooked (represents.sound _ ready.names) rfl effect.files) (by
      intro other apart name content
      obtain same | ⟨absent, made⟩ := effect.beside (name :: stateHome top other) (not_below_home apart name).1
      · rw [same]
      · rw [absent, made]
        simp)
  refine ⟨_, ?_, next, effect.changes⟩
  cases ended : (persistInstalledState env reader.json layout source pending disk).2 == .done with
  | true =>
      obtain ⟨installed, again, same⟩ := loaded_of_contents ready hooked (enclosure.changed effect.rooted effect.changes)
        (effect.done (by simpa using ended))
      have present : entry = some installed := Except.ok.inj (loaded.symm.trans again)
      rw [present, Option.map_some, same]
      exact StateStep.persisted state _
  | false =>
      cases entry with
      | none => exact StateStep.spoiled state _
      | some installed => exact StateStep.unfinished state (named installed rfl)

theorem Represents.congr {nodes : Nodes Bytes Bytes} {other : RqpState} (represents : Represents env reader root top nodes state)
    (same : ∀ package, package ∈ state.installed ↔ package ∈ other.installed) : Represents env reader root top nodes other where
  enclosure := represents.enclosure
  lists := represents.lists
  sound := represents.sound
  plain package member := represents.plain package ((same package).2 member)
  installed directory names package := by rw [← same, represents.installed directory names package]

theorem loadInstalled_taken {nodes other : Nodes Bytes Bytes} {installed : LoadedState} (enclosure : Enclosure env root top nodes)
    (later : Enclosure env root top other) (names : DirectoryNames directory)
    (taken : ∀ name content, other (name :: stateHome top directory) = some (.file content) →
      nodes (name :: stateHome top directory) = some (.file content))
    (loaded : RqpStateStore.loadInstalled env reader other (statePath root directory) = .ok (some installed)) :
    RqpStateStore.loadInstalled env reader nodes (statePath root directory) = .ok (some installed) := by
  rw [loadInstalled_eq later names] at loaded
  rw [loadInstalled_eq enclosure names]
  have kept : ∀ {name content}, fileAt other (name :: stateHome top directory) = some content →
      fileAt nodes (name :: stateHome top directory) = some content :=
    fun present => fileAt_eq_some.2 (taken _ _ (fileAt_eq_some.1 present))
  unfold RqpStateStore.loadFiles at loaded
  split at loaded
  · rename_i metadata hooks source manifest
    rw [kept metadata, kept hooks, kept source, kept manifest]
    exact loaded
  · cases loaded

theorem remove_refines (represents : Represents env reader root top disk.nodes state) (listsNames : env.ListsNames)
    {listed : List LoadedState} {installed : LoadedState} {stuck : List (Location Bytes)}
    (found : RqpStateStore.listInstalled env reader disk.nodes root = .ok listed) (member : installed ∈ listed)
    (meanwhile : env.Lists (env.removeAll stuck installed.stateDir disk).1.nodes)
    (lists : env.Lists (RqpStateStore.removeInstalledState env stuck installed disk).1.nodes) :
    ∃ next, StateStep state (.remove installed.package) (RqpStateStore.removeInstalledState env stuck installed disk).2 next ∧
      Represents env reader root top (RqpStateStore.removeInstalledState env stuck installed disk).1.nodes next ∧
      ChangesBelow top disk (RqpStateStore.removeInstalledState env stuck installed disk).1 := by
  obtain ⟨visited, again, -, placed⟩ := listInstalled_represents represents listsNames
  cases Except.ok.inj (again.symm.trans found)
  obtain ⟨directory, names, inPlace, loaded⟩ := placed installed member
  have enclosure := represents.enclosure
  have effect : RemoveEffect top (directory.1 :: top) (stateHome top directory) disk
      (RqpStateStore.removeInstalledState env stuck installed disk) :=
    removeInstalledState_effect enclosure names.first names.second inPlace.path meanwhile
  have taken : ∀ name content, (RqpStateStore.removeInstalledState env stuck installed disk).1.nodes (name :: stateHome top directory) =
      some (.file content) → disk.nodes (name :: stateHome top directory) = some (.file content) := by
    intro name content present
    obtain same | gone := effect.taken (name :: stateHome top directory)
    · rw [← same, present]
    · rw [gone] at present
      cases present
  have before := represents.sound directory names
  obtain ⟨entry, later, named, next⟩ := represents.refill names effect.rooted effect.changes lists
    ⟨fun content present => before.metadata content (taken _ _ present), fun content present => before.hooks content (taken _ _ present),
      fun content present => before.source content (taken _ _ present)⟩ (by
      intro other apart name content
      rw [effect.beside (name :: stateHome top other) (not_below_home apart name).2]
      intro same
      have longer := congrArg List.length same
      simp only [stateHome, List.length_cons] at longer
      omega)
  cases entry with
  | none =>
      refine ⟨_, ?_, next, effect.changes⟩
      have answered := StateStep.removed state installed.package (RqpStateStore.removeInstalledState env stuck installed disk).2
      rw [inPlace.named] at answered
      exact answered
  | some left =>
      -- what is loaded still was loaded before, from the same files
      have same : left = installed := by
        have kept := loadInstalled_taken enclosure next.enclosure names taken later
        exact Option.some.inj (Except.ok.inj (kept.symm.trans loaded))
      have failed : (RqpStateStore.removeInstalledState env stuck installed disk).2 = false := by
        rw [← Bool.not_eq_true]
        intro removed
        have present := home_of_loaded next.enclosure names later
        rw [effect.gone removed _ (List.suffix_refl _)] at present
        cases present
      rw [failed]
      refine ⟨state, StateStep.kept state _, next.congr fun package => ?_, effect.changes⟩
      rw [Option.map_some, same, mem_filled names (by simpa using inPlace.named), Option.some.injEq]
      apply Iff.intro
      · rintro (rfl | ⟨before, -⟩)
        · exact ((represents.installed directory names _).2 ⟨installed, loaded, rfl⟩).1
        · exact before
      · intro before
        by_cases here : stateDir package.metadata = directory
        · obtain ⟨other, read, rfl⟩ := (represents.installed directory names package).1 ⟨before, here⟩
          cases Option.some.inj (Except.ok.inj (loaded.symm.trans read))
          exact Or.inl rfl
        · exact Or.inr ⟨before, here⟩

end Steps

/-! ## Runs -/

/-- The calls of a run with their answers, the first one first. -/
inductive StateRun (state : RqpState) : List (StoreCall × Bool) → RqpState → Prop
  | start : StateRun state [] state
  | step {calls : List (StoreCall × Bool)} {middle next : RqpState} {call : StoreCall} {answer : Bool}
      (run : StateRun state calls middle) (last : StateStep middle call answer next) :
      StateRun state (calls ++ [(call, answer)]) next

inductive DiskRun (env : FileEnv) (reader : StateReader) (root : Bytes) (top : Location Bytes) (disk : PayloadDisk) :
    List (StoreCall × Bool) → PayloadDisk → Prop
  | start : DiskRun env reader root top disk [] disk
  | step {calls : List (StoreCall × Bool)} {middle next : PayloadDisk} {call : StoreCall} {answer : Bool}
      (run : DiskRun env reader root top disk calls middle) (last : DiskStep env reader root top middle call answer next) :
      DiskRun env reader root top disk (calls ++ [(call, answer)]) next

/-- The directory a call is about. -/
def StoreCall.directory : StoreCall → Bytes × Bytes
  | .persist package => stateDir package.metadata
  | .remove package => stateDir package.metadata

section Runs

variable {env : FileEnv} {reader : StateReader} {root : Bytes} {top : Location Bytes} {disk after : PayloadDisk}
variable {state next : RqpState} {calls front back : List (StoreCall × Bool)} {call : StoreCall} {answer : Bool}
variable {package : RqpInstalledPackage}

theorem diskStep_refines (represents : Represents env reader root top disk.nodes state) (listsNames : env.ListsNames)
    (step : DiskStep env reader root top disk call answer after) :
    ∃ next, StateStep state call answer next ∧ Represents env reader root top after.nodes next ∧ ChangesBelow top disk after := by
  cases step with
  | persist ready lists => exact persist_refines represents listsNames ready lists
  | remove found member meanwhile lists => exact remove_refines represents listsNames found member meanwhile lists

theorem diskRun_refines (represents : Represents env reader root top disk.nodes state) (listsNames : env.ListsNames)
    (run : DiskRun env reader root top disk calls after) :
    ∃ next, StateRun state calls next ∧ Represents env reader root top after.nodes next ∧ ChangesBelow top disk after := by
  induction run with
  | start => exact ⟨state, StateRun.start, represents, ChangesBelow.refl top disk⟩
  | step run last ih =>
      obtain ⟨middle, begun, between, changed⟩ := ih
      obtain ⟨next, step, ended, changes⟩ := diskStep_refines between listsNames last
      exact ⟨next, begun.step step, ended, changed.trans changes⟩

theorem mem_write {written : RqpInstalledPackage} (other : stateDir package.metadata ≠ stateDir written.metadata) :
    package ∈ (state.write written).installed ↔ package ∈ state.installed := by
  apply Iff.intro
  · intro member
    rw [RqpState.write] at member
    split at member
    · obtain same | kept := List.mem_cons.1 member
      · rw [same] at other
        exact absurd rfl other
      · exact (mem_without.1 kept).1
    · exact member
  · intro member
    exact mem_write_of_apart member other

theorem StateStep.frame (step : StateStep state call answer next) (apart : stateDir package.metadata ≠ call.directory) :
    package ∈ next.installed ↔ package ∈ state.installed := by
  cases step with
  | persisted package => exact mem_write apart
  | unfinished same => exact mem_write (same ▸ apart)
  | spoiled package => exact mem_without.trans (and_iff_left apart)
  | removed package => exact mem_without.trans (and_iff_left apart)
  | kept package => exact Iff.rfl

theorem StateRun.frame (run : StateRun state calls next) (apart : ∀ call ∈ calls, stateDir package.metadata ≠ call.1.directory) :
    package ∈ next.installed ↔ package ∈ state.installed := by
  induction run with
  | start => exact Iff.rfl
  | step run last ih =>
      rw [List.forall_mem_append, List.forall_mem_singleton] at apart
      exact (last.frame apart.2).trans (ih apart.1)

theorem DiskRun.split (run : DiskRun env reader root top disk (front ++ back) after) :
    ∃ middle, DiskRun env reader root top disk front middle ∧ DiskRun env reader root top middle back after := by
  generalize whole : front ++ back = calls at run
  induction run generalizing back with
  | start =>
      obtain ⟨rfl, rfl⟩ := List.append_eq_nil_iff.1 whole
      exact ⟨disk, DiskRun.start, DiskRun.start⟩
  | step run last ih =>
      obtain empty | ⟨rest, call, rfl⟩ := List.eq_nil_or_concat' back
      · rw [empty, List.append_nil] at whole
        rw [empty, whole]
        exact ⟨_, run.step last, DiskRun.start⟩
      · rw [← List.append_assoc] at whole
        obtain ⟨before, same⟩ := List.append_inj' whole rfl
        obtain ⟨middle, first, second⟩ := ih before
        cases List.singleton_inj.1 same
        exact ⟨middle, first, second.step last⟩

theorem DiskRun.single (run : DiskRun env reader root top disk [(call, answer)] after) :
    DiskStep env reader root top disk call answer after := by
  generalize whole : [(call, answer)] = calls at run
  cases run with
  | start => cases whole
  | step run last =>
      have shape : ([] : List (StoreCall × Bool)) ++ [(call, answer)] = _ ++ [_] := whole
      obtain ⟨before, same⟩ := List.append_inj' shape rfl
      cases List.singleton_inj.1 same
      rw [← before] at run
      generalize none : ([] : List (StoreCall × Bool)) = calls at run
      cases run with
      | start => exact last
      | step run last => simp at none

theorem DiskStep.names (step : DiskStep env reader root top disk (.persist package) answer after) :
    DirectoryNames (stateDir package.metadata) := by
  generalize same : StoreCall.persist package = call at step
  cases step with
  | persist ready lists =>
      cases same
      exact ready.names
  | remove found member meanwhile lists => cases same

theorem mem_of_step (step : StateStep state call true next) (names : ∀ package, call = .persist package →
    DirectoryNames (stateDir package.metadata)) :
    (package ∈ next.installed ∧ stateDir package.metadata = call.directory) ↔ call = .persist package := by
  cases step with
  | persisted written =>
      have filled := @mem_filled state (stateDir written.metadata) package (some written) (names written rfl) (by simp)
      rw [RqpState.filled] at filled
      rw [filled, StoreCall.directory, StoreCall.persist.injEq, Option.some.injEq]
      apply Iff.intro
      · rintro ⟨same | ⟨-, apart⟩, here⟩
        · exact same
        · exact absurd here apart
      · rintro rfl
        exact ⟨Or.inl rfl, rfl⟩
  | removed taken =>
      rw [mem_without, StoreCall.directory]
      apply Iff.intro
      · rintro ⟨⟨-, apart⟩, here⟩
        exact absurd here apart
      · intro same
        cases same

end Runs

theorem DiskStep.persistDone {env : FileEnv} {reader : StateReader} {root : Bytes} {top : Location Bytes} {disk : PayloadDisk}
    {layout : RqPackageLayout} {source : RqStateSource} {pending : List ManifestEntry} {run : Persisted}
    (ready : Persistable env reader root top disk layout source)
    (same : run = persistInstalledState env reader.json layout source pending disk)
    (lists : env.Lists run.1.nodes) (done : run.2 = .done) :
    DiskStep env reader root top disk (.persist ⟨layout.metadata.packageId, source⟩) true run.1 := by
  rw [same] at lists done ⊢
  have step := DiskStep.persist ready lists
  rw [done] at step
  exact step

/-! ## A root with one package -/

section Logged

variable {env : FileEnv} {json : JsonText} {layout : RqPackageLayout} {initial : Nodes Bytes Bytes} {disk : PayloadDisk}

theorem makeDirectories_logged (logged : disk.Logged initial) (path : Bytes) : (env.makeDirectories path disk).1.Logged initial := by
  rw [FileEnv.makeDirectories]
  split
  · exact logged
  · exact ensureDirectories_logged logged

theorem write_logged (logged : disk.Logged initial) (path content : Bytes) : (env.write path content disk).1.Logged initial := by
  rw [FileEnv.write]
  split
  · exact logged
  · exact writeFile_logged logged content

theorem copy_logged (logged : disk.Logged initial) (source path : Bytes) : (env.copy source path disk).1.Logged initial := by
  rw [FileEnv.copy]
  split
  · exact logged
  · exact copyFile_logged logged _ _

theorem Persisted.andThen_logged {first : Persisted} {next : PayloadDisk → Persisted} (begun : first.1.Logged initial)
    (further : ∀ {disk : PayloadDisk}, disk.Logged initial → (next disk).1.Logged initial) :
    (first.andThen next).1.Logged initial := by
  rw [Persisted.andThen]
  split
  · exact further begun
  · exact begun

theorem copyScripts_logged {names : List Bytes} (logged : disk.Logged initial) :
    (copyScripts env layout names disk).1.Logged initial := by
  induction names generalizing disk with
  | nil => exact logged
  | cons name names ih =>
      rw [copyScripts]
      split
      · exact ih logged
      · exact Persisted.andThen_logged (copy_logged logged _ _) ih

theorem copyScriptsDirectory_logged (logged : disk.Logged initial) : (copyScriptsDirectory env layout disk).1.Logged initial := by
  rw [copyScriptsDirectory]
  split
  · split
    · exact copyScripts_logged logged
    · exact logged
  · exact logged

theorem persistInstalledState_logged (logged : disk.Logged initial) (source : RqStateSource) (pending : List ManifestEntry) :
    (persistInstalledState env json layout source pending disk).1.Logged initial := by
  refine Persisted.andThen_logged (makeDirectories_logged logged _) fun logged => ?_
  refine Persisted.andThen_logged (write_logged logged _ _) fun logged => ?_
  refine Persisted.andThen_logged (copy_logged logged _ _) fun logged => ?_
  refine Persisted.andThen_logged (copyScriptsDirectory_logged logged) fun logged => ?_
  refine Persisted.andThen_logged (write_logged logged _ _) fun logged => ?_
  exact write_logged logged _ _

end Logged

section Table

variable {env : FileEnv} {reader : StateReader} {root : Bytes} {top : Location Bytes} {nodes : Nodes Bytes Bytes}
variable {directory : Bytes × Bytes} {installed : LoadedState}

theorem sound_of_loaded (enclosure : Enclosure env root top nodes) (names : DirectoryNames directory)
    (named : stateDir installed.package.metadata = directory)
    (loaded : RqpStateStore.loadInstalled env reader nodes (statePath root directory) = .ok (some installed)) :
    SoundFiles reader nodes (stateHome top directory) directory := by
  rw [loadInstalled_eq enclosure names] at loaded
  unfold RqpStateStore.loadFiles at loaded
  split at loaded
  · next metadataText hooksText sourceText _ metadataFile hooksFile sourceFile _ =>
      rw [RqpStateStore.parseState] at loaded
      cases metadata : rqParseMetadataJson reader.json.readTree metadataText with
      | error message => rw [metadata] at loaded; cases loaded
      | ok parsed =>
          cases source : RqpStateStore.parseSourceJson reader.json.readTree sourceText with
          | error message => rw [metadata, source] at loaded; cases loaded
          | ok origin =>
              cases hooks : reader.parseHooks hooksText with
              | error message => rw [metadata, source, hooks] at loaded; cases loaded
              | ok table =>
                  rw [metadata, source, hooks] at loaded
                  cases loaded
                  refine ⟨fun content found => ?_, fun content found => ?_, fun content found => ?_⟩
                  · rw [← Option.some.inj ((fileAt_eq_some.2 found).symm.trans metadataFile)] at metadata
                    exact ⟨parsed, metadata, named⟩
                  · rw [← Option.some.inj ((fileAt_eq_some.2 found).symm.trans hooksFile)] at hooks
                    exact ⟨table, hooks⟩
                  · rw [← Option.some.inj ((fileAt_eq_some.2 found).symm.trans sourceFile)] at source
                    exact ⟨origin, source⟩
  · cases loaded

theorem mem_loaded {loaded : List LoadedState} (enclosure : Enclosure env root top nodes)
    (placed : ∀ installed ∈ loaded, DirectoryNames (stateDir installed.package.metadata) ∧
      RqpStateStore.loadInstalled env reader nodes (statePath root (stateDir installed.package.metadata)) = .ok (some installed))
    (only : ∀ directory name content, nodes (name :: stateHome top directory) = some (.file content) →
      ∃ installed ∈ loaded, stateDir installed.package.metadata = directory) (names : DirectoryNames directory)
    (read : RqpStateStore.loadInstalled env reader nodes (statePath root directory) = .ok (some installed)) :
    installed ∈ loaded ∧ stateDir installed.package.metadata = directory := by
  obtain ⟨holder, inside, rfl⟩ : ∃ holder ∈ loaded, stateDir holder.package.metadata = directory := by
    rw [loadInstalled_eq enclosure names] at read
    unfold RqpStateStore.loadFiles at read
    split at read
    · next metadataFile _ _ _ => exact only directory _ _ (fileAt_eq_some.1 metadataFile)
    · cases read
  cases Option.some.inj (Except.ok.inj (read.symm.trans (placed holder inside).2))
  exact ⟨inside, rfl⟩

theorem represents_of_loaded {state : RqpState} (loaded : List LoadedState) (enclosure : Enclosure env root top nodes)
    (lists : env.Lists nodes) (packages : ∀ package, package ∈ state.installed ↔ package ∈ loaded.map LoadedState.package)
    (placed : ∀ installed ∈ loaded, DirectoryNames (stateDir installed.package.metadata) ∧
      RqpStateStore.loadInstalled env reader nodes (statePath root (stateDir installed.package.metadata)) = .ok (some installed))
    (only : ∀ directory name content, nodes (name :: stateHome top directory) = some (.file content) →
      ∃ installed ∈ loaded, stateDir installed.package.metadata = directory) : Represents env reader root top nodes state := by
  refine ⟨enclosure, lists, fun directory names => ?_, fun package member => ?_, fun directory names package => ?_⟩
  · by_cases held : ∃ installed ∈ loaded, stateDir installed.package.metadata = directory
    · obtain ⟨installed, member, rfl⟩ := held
      exact sound_of_loaded enclosure names rfl (placed installed member).2
    · have bare : ∀ name content, nodes (name :: stateHome top directory) ≠ some (.file content) :=
        fun name content present => held (only directory name content present)
      exact ⟨fun content found => absurd found (bare _ content), fun content found => absurd found (bare _ content),
        fun content found => absurd found (bare _ content)⟩
  · obtain ⟨installed, inside, rfl⟩ := List.mem_map.1 ((packages package).1 member)
    exact (placed installed inside).1
  · apply Iff.intro
    · rintro ⟨member, rfl⟩
      obtain ⟨installed, inside, rfl⟩ := List.mem_map.1 ((packages package).1 member)
      exact ⟨installed, (placed installed inside).2, rfl⟩
    · rintro ⟨installed, read, rfl⟩
      obtain ⟨inside, named⟩ := mem_loaded enclosure placed only names read
      exact ⟨(packages _).2 (List.mem_map_of_mem inside), named⟩

theorem represents_empty (enclosure : Enclosure env root top nodes) (lists : env.Lists nodes)
    (bare : ∀ location, StrictlyBelow top location → nodes location = none) : Represents env reader root top nodes {} := by
  refine represents_of_loaded [] enclosure lists (by simp) (by simp) fun directory name content present => ?_
  have below : StrictlyBelow top (name :: stateHome top directory) :=
    strictlyBelow_append [name, directory.2, directory.1] (by simp) top
  rw [bare _ below] at present
  cases present

end Table

/-- An operating system that lists the names it knows. -/
def namesEnv (names : List Bytes) : FileEnv := ⟨8, [], fun nodes location => names.filter fun name => (nodes (name :: location)).isSome⟩

def isPlain : Node Bytes Bytes → Bool
  | .link _ _ => false
  | _ => true

section Names

variable {names : List Bytes} {nodes : Nodes Bytes Bytes} {location top : Location Bytes} {name root : Bytes}

theorem mem_namesListing :
    name ∈ (namesEnv names).listing nodes location ↔ name ∈ names ∧ ∃ node, nodes (name :: location) = some node := by
  rw [namesEnv, List.mem_filter, Option.isSome_iff_exists]

theorem namesEnv_listsNames (plain : ∀ name ∈ names, isDirectoryName name = true ∧ name.contains 0 = false) :
    (namesEnv names).ListsNames := by
  intro nodes location name member
  obtain ⟨named, whole⟩ := plain name (mem_namesListing.1 member).1
  exact fileName_of_text named whole

theorem namesEnv_lists (once : names.Nodup) (known : ∀ name location node, nodes (name :: location) = some node → name ∈ names) :
    (namesEnv names).Lists nodes := by
  intro location _
  refine ⟨once.filter fun name => (nodes (name :: location)).isSome, fun name => ?_⟩
  rw [mem_namesListing]
  exact ⟨fun listed => listed.2, fun ⟨node, present⟩ => ⟨known name location node present, node, present⟩⟩

theorem namesEnv_enclosure {entries : List (Location Bytes × Node Bytes Bytes)} (filled : root ≠ []) (whole : 0 ∉ root)
    (mounted : Mounted [] (ofEntries entries))
    (leads : walk (outsideOf top (ofEntries entries)) true 8 ((namesEnv names).start root) (dirParts root) = .found top)
    (directory : ofEntries entries top = some .directory)
    (plain : (entries.all fun entry => !top.isSuffixOf entry.1 || isPlain entry.2) = true) :
    Enclosure (namesEnv names) root top (ofEntries entries) := by
  have cwd : ¬ StrictlyBelow top (namesEnv names).cwd := fun below => below.2 (List.suffix_nil.1 below.1).symm
  refine ⟨filled, whole, mounted.rooted, ⟨outsideOf_rooted mounted.rooted, (outsideOf_apart cwd).trans mounted.base⟩, leads,
    directory, fun location below absolute target present => ?_⟩
  have holds := List.all_eq_true.1 plain _ (mem_of_ofEntries present)
  rw [List.isSuffixOf_iff_suffix.2 below] at holds
  cases holds

end Names

def storeNodes : List (Location Bytes × Node Bytes Bytes) :=
  [([], .directory), ([bytes "state"], .directory), ([bytes "control"], .directory),
    ([bytes "reqpack.lua", bytes "control"], .file (bytes "return"))]

def storeDisk : PayloadDisk := ⟨ofEntries storeNodes, []⟩

/-- The names that stand on the disk at any time. -/
def storeNames : List Bytes :=
  [bytes "state", bytes "control", bytes "reqpack.lua", bytes "rich", bytes "rich@1.0-1+r0", bytes "scripts", bytes "metadata.json",
    bytes "source.json", bytes "manifest.json"]

def storeEnv : FileEnv := namesEnv storeNames

def storeSource : RqStateSource := ⟨bytes "local-file", bytes "rich.rqp", [], []⟩

def storeLayout : RqPackageLayout where
  controlDir := bytes "/control"
  stateDir := bytes "/state/rich/rich@1.0-1+r0"
  metadata := richMetadata []
  identity := bytes "rich@1.0-1+r0"
  hooks := [(bytes "install", bytes "reqpack.lua")]

def storeTree (text : Bytes) : Option Ptree :=
  if text = rqMetadataJson id (richMetadata []) then some (metadataDocument (richMetadata [])).tree
  else if text = sourceJson id storeSource storeLayout.identity then some (sourceDocument storeSource storeLayout.identity).tree
  else none

def storeReader : StateReader := ⟨⟨storeTree, id⟩, fun _ => .ok storeLayout.hooks⟩

def storeRun : Persisted := persistInstalledState storeEnv storeReader.json storeLayout storeSource [] storeDisk

theorem storeEnv_listsNames : storeEnv.ListsNames := namesEnv_listsNames (by decide)

theorem mem_storeNodes {location : Location Bytes} {node : Node Bytes Bytes} (present : storeDisk.nodes location = some node) :
    (location, node) ∈ storeNodes := mem_of_ofEntries present

theorem storeNodes_known {name : Bytes} {location : Location Bytes} {node : Node Bytes Bytes}
    (present : storeDisk.nodes (name :: location) = some node) : name ∈ storeNames := by
  have named : ∀ entry ∈ storeNodes, ∀ name ∈ entry.1.head?, name ∈ storeNames := by decide
  exact named _ (mem_storeNodes present) name rfl

theorem storeRoot : Enclosure storeEnv (bytes "/state") [bytes "state"] storeDisk.nodes :=
  namesEnv_enclosure (by decide) (by decide) (ofEntries_mounted (by decide) (by decide) (by decide)) (by decide +kernel) (by decide)
    (by decide)

theorem storeRoot_empty : Represents storeEnv storeReader (bytes "/state") [bytes "state"] storeDisk.nodes {} := by
  refine represents_empty storeRoot (namesEnv_lists (by decide) fun _ _ _ => storeNodes_known) fun location below => ?_
  by_contra present
  obtain ⟨node, there⟩ := Option.ne_none_iff_exists'.1 present
  have outside : ∀ entry ∈ storeNodes, ¬([bytes "state"] <:+ entry.1 ∧ entry.1 ≠ [bytes "state"]) := by decide
  exact outside _ (mem_storeNodes there) below

theorem storeRun_done : storeRun.2 = .done := by decide +kernel

theorem storeRun_known {name : Bytes} {location : Location Bytes} {node : Node Bytes Bytes}
    (present : storeRun.1.nodes (name :: location) = some node) : name ∈ storeNames := by
  have logged : storeRun.1.Logged storeDisk.nodes := persistInstalledState_logged (fun _ _ => rfl) storeSource []
  have named : ∀ place ∈ storeRun.1.touched, ∀ name ∈ place.head?, name ∈ storeNames := by decide +kernel
  by_cases touched : name :: location ∈ storeRun.1.touched
  · exact named _ touched name rfl
  · rw [logged _ touched] at present
    exact storeNodes_known present

theorem storeTree_metadata : ReadsJson storeTree id (metadataDocument (richMetadata [])) := by
  rw [ReadsJson, storeTree]
  exact if_pos rfl

theorem storeTree_source : ReadsJson storeTree id (sourceDocument storeSource storeLayout.identity) := by
  have apart : sourceJson id storeSource storeLayout.identity ≠ rqMetadataJson id (richMetadata []) := by decide +kernel
  rw [ReadsJson, storeTree]
  exact (if_neg apart).trans (if_pos rfl)

theorem store_persistable : Persistable storeEnv storeReader (bytes "/state") [bytes "state"] storeDisk storeLayout storeSource where
  names := ⟨fileName_of_text (by decide +kernel) (by decide +kernel), fileName_of_text (by decide +kernel) (by decide +kernel)⟩
  stateDir := by decide +kernel
  identity := by decide +kernel
  metadata := ⟨rqMetadataJson id (richMetadata []), by decide +kernel⟩
  readsMetadata := storeTree_metadata
  readsSource := storeTree_source
  origin := by decide
  path := by decide
  hooks := ⟨bytes "return", storeLayout.hooks, by decide +kernel, rfl⟩

theorem storeRun_eq : storeRun = persistInstalledState storeEnv storeReader.json storeLayout storeSource [] storeDisk := by
  rw [storeRun]

theorem storeRun_lists : storeEnv.Lists storeRun.1.nodes :=
  namesEnv_lists (by decide) fun _ _ _ => storeRun_known

theorem store_run : DiskRun storeEnv storeReader (bytes "/state") [bytes "state"] storeDisk
    ([] ++ (.persist ⟨storeLayout.metadata.packageId, storeSource⟩, true) :: []) storeRun.1 :=
  DiskRun.start.step (DiskStep.persistDone store_persistable storeRun_eq storeRun_lists storeRun_done)

end ReqPack.Rqp
