import ReqPack.Registry.MainRegistry
import ReqPack.Registry.Settled

/-! # A difference against all files

A store that holds the old commit can be brought to the new one by the files that changed
or by all files.  Both ways agree on a name unless its record moves between files.
-/

namespace ReqPack.Registry

open ReqPack.Data ReqPack.Core
open ReqPack.Planner (trimCopy toLowerCopy)

/-- The output of git, as it is read back, lists every registry file that changed from one
commit to the next, and as deleted or renamed only files that are gone. -/
structure Lists (location : RegistryLocation) (output : String) (old new : RegistryTree) : Prop where
  changed : ∀ entries, gitRegistryDiff output = some entries → ∀ path, location.holds path = true →
    hasJsonExtension path = true → old.find path ≠ new.find path → ∃ entry ∈ entries, entry.path = path
  gone : ∀ entries, gitRegistryDiff output = some entries → ∀ entry ∈ entries,
    entry.status = 'D' ∨ entry.status = 'R' → new.find entry.path = none
  /-- git is asked about the plugins path only -/
  below : ∀ entries, gitRegistryDiff output = some entries → ∀ entry ∈ entries,
    location.holds entry.path = true ∧ ∀ part ∈ entry.path, Path.Plain part

/-- Where the two ways agree on a name, by its last record in the old commit, in the new
commit and in the files that changed. -/
def AgreesOn (env : RegistryEnv) (location : RegistryLocation) (store : RegistryStore)
    (oldRecords newRecords changed : List RegistryRecord) (name : String) : Prop :=
  match lastNamed newRecords name, lastNamed changed name with
  -- no file declares the name any more
  | none, _ => (readRecord store name).isSome = true → location.Spelled
  -- a changed file declares it
  | some record, some other => other = record
  -- only files that did not change declare it
  | some record, none => lastNamed oldRecords name = some record ∧
      ∃ stored, store.get name = some stored ∧ Settled env stored

section Files

variable {location : RegistryLocation} {entries : List RegistryDiffEntry} {old new : RegistryTree}

theorem filename_append {base added : Path} (named : added ≠ []) : filename (base ++ added) = filename added := by
  simp only [filename, List.getLast?_append]
  cases last : added.getLast? with
  | none => exact absurd (List.getLast?_eq_none_iff.mp last) named
  | some part => rfl

/-- A file of a commit below the plugins root, with the path it has there. -/
structure RegistryFile (location : RegistryLocation) (tree : RegistryTree) (file : TreeFile)
    (relative : Path) : Prop where
  member : file ∈ tree.files
  named : relative ≠ []
  path : file.path = location.inner ++ relative
  json : hasJsonExtension file.path = true

namespace RegistryFile

variable {tree : RegistryTree} {file : TreeFile} {relative : Path}

theorem plain (registered : RegistryFile location tree file relative) : ∀ part ∈ relative, Path.Plain part := by
  intro part member
  apply (tree.named file registered.member).2
  rw [registered.path]
  exact List.mem_append_right _ member

theorem holds (registered : RegistryFile location tree file relative) : location.holds file.path = true :=
  RegistryLocation.holds_iff.2 ⟨relative, registered.named, registered.path⟩

theorem find (registered : RegistryFile location tree file relative) : tree.find file.path = some file :=
  RegistryTree.find_eq_some.2 ⟨registered.member, rfl⟩

theorem collected (registered : RegistryFile location tree file relative) :
    (location.walkedPath relative, file.content) ∈ collectRegistryJsonFiles location tree :=
  mem_collectRegistryJsonFiles.2
    ⟨file, registered.member, relative, registered.named, registered.path, registered.json, rfl⟩

theorem normalPath (registered : RegistryFile location tree file relative) :
    location.normalPath file.path = Path.lexicallyNormal location.pluginsRoot.directory ++ relative := by
  rw [registered.path, RegistryLocation.normalPath_inner registered.plain]

/-- The two ways to spell the path of a file end in the same name. -/
theorem moved (registered : RegistryFile location tree file relative) :
    parseRegistryJsonFile (location.normalPath file.path) file.content =
      (parseRegistryJsonFile (location.walkedPath relative) file.content).map
        (List.map (movedTo (location.normalPath file.path))) := by
  apply parseRegistryJsonFile_moved
  rw [registered.normalPath, RegistryLocation.walkedPath, filename_append registered.named,
    filename_append registered.named]

end RegistryFile

/-- The last record of a name comes from a file of the commit. -/
theorem lastNamed_registryRecords {tree : RegistryTree} {records : List RegistryRecord}
    (parsed : registryRecords location tree = some records) {name : String} {record : RegistryRecord}
    (last : lastNamed records name = some record) :
    ∃ file relative own, RegistryFile location tree file relative ∧
      parseRegistryJsonFile (location.walkedPath relative) file.content = some own ∧
      lastNamed own name = some record ∧ Declares (location.walkedPath relative) record := by
  obtain ⟨found, member, own, read, inside⟩ := lastNamed_parseFiles parsed last
  obtain ⟨file, listed, relative, named, path, json, rfl⟩ := mem_collectRegistryJsonFiles.1 member
  exact ⟨file, relative, own, ⟨listed, named, path, json⟩, read, inside,
    parseRegistryJsonFile_declares read record (lastNamed_mem inside)⟩

variable {output : String}

/-- A file that git lists and that is still there is read again. -/
theorem mem_filesToParse_of_listed (lists : Lists location output old new)
    (read : gitRegistryDiff output = some entries) {file : TreeFile} {relative : Path}
    (registered : RegistryFile location new file relative) {entry : RegistryDiffEntry}
    (member : entry ∈ entries) (same : entry.path = file.path) :
    (location.normalPath file.path, file.content) ∈ filesToParse location new entries := by
  have there : new.find entry.path ≠ none := by
    rw [same, registered.find]
    simp
  have kept : ¬ (entry.status = 'D' ∨ entry.status = 'R') := fun status =>
    there (lists.gone entries read entry member status)
  rw [not_or] at kept
  refine mem_filesToParse.2 ⟨entry, member, ?_, kept.1, kept.2, file, registered.member, same.symm, ?_⟩
  · rw [same]
    exact registered.json
  · rw [same]

/-- The last record of a name in the changed files comes from a file of the new commit. -/
theorem lastNamed_changedRecords (lists : Lists location output old new)
    (read : gitRegistryDiff output = some entries) {changed : List RegistryRecord}
    (parsed : changedRecords location new entries = some changed) {name : String} {record : RegistryRecord}
    (last : lastNamed changed name = some record) :
    ∃ file relative own inner, RegistryFile location new file relative ∧
      parseRegistryJsonFile (location.walkedPath relative) file.content = some own ∧
      lastNamed own name = some inner ∧ record = movedTo (location.normalPath file.path) inner := by
  obtain ⟨found, member, own, given, inside⟩ := lastNamed_parseFiles parsed last
  obtain ⟨entry, listed, json, _, _, file, inNew, same, rfl⟩ := mem_filesToParse.1 member
  obtain ⟨relative, named, path⟩ := RegistryLocation.holds_iff.1 (lists.below entries read entry listed).1
  have registered : RegistryFile location new file relative :=
    ⟨inNew, named, same.trans path, by rw [same]; exact json⟩
  simp only [← same] at given
  rw [registered.moved] at given
  obtain ⟨walked, parsedThere, rfl⟩ := Option.map_eq_some_iff.mp given
  rw [lastNamed_moved] at inside
  obtain ⟨inner, declared, rfl⟩ := Option.map_eq_some_iff.mp inside
  exact ⟨file, relative, walked, inner, registered, parsedThere, declared, rfl⟩

/-- A name that a listed file declares is declared by the changed files. -/
theorem changedRecords_declares (lists : Lists location output old new)
    (read : gitRegistryDiff output = some entries) {changed : List RegistryRecord}
    (parsed : changedRecords location new entries = some changed) {file : TreeFile} {relative : Path}
    (registered : RegistryFile location new file relative) {own : List RegistryRecord}
    (given : parseRegistryJsonFile (location.walkedPath relative) file.content = some own) {name : String}
    (declared : (lastNamed own name).isSome = true) {entry : RegistryDiffEntry} (member : entry ∈ entries)
    (same : entry.path = file.path) : (lastNamed changed name).isSome = true := by
  have inParse := mem_filesToParse_of_listed lists read registered member same
  have again : parseRegistryJsonFile (location.normalPath file.path) file.content =
      some (own.map (movedTo (location.normalPath file.path))) := by
    rw [registered.moved, given, Option.map_some]
  apply lastNamed_isSome parsed inParse again
  rw [lastNamed_moved, Option.isSome_map]
  exact declared

theorem registryRecords_declares {tree : RegistryTree} {records : List RegistryRecord}
    (parsed : registryRecords location tree = some records) {file : TreeFile} {relative : Path}
    (registered : RegistryFile location tree file relative) {own : List RegistryRecord}
    (given : parseRegistryJsonFile (location.walkedPath relative) file.content = some own) {name : String}
    (declared : (lastNamed own name).isSome = true) : (lastNamed records name).isSome = true :=
  lastNamed_isSome parsed registered.collected given declared

/-- A file that is the same in both commits. -/
theorem RegistryFile.unchanged {file : TreeFile} {relative : Path} {tree other : RegistryTree}
    (registered : RegistryFile location tree file relative)
    (same : tree.find file.path = other.find file.path) : RegistryFile location other file relative := by
  rw [registered.find] at same
  exact ⟨(RegistryTree.find_eq_some.1 same.symm).1, registered.named, registered.path, registered.json⟩

/-- When the old commit could be read, the new one can be read exactly when its changed
files can. -/
theorem changedRecords_isSome (lists : Lists location output old new)
    (read : gitRegistryDiff output = some entries) {oldRecords : List RegistryRecord}
    (parsed : registryRecords location old = some oldRecords) :
    (changedRecords location new entries).isSome = (registryRecords location new).isSome := by
  rw [Bool.eq_iff_iff, changedRecords, registryRecords, parseFiles_isSome, parseFiles_isSome]
  have oldParsed := parseFiles_isSome.1 (Option.isSome_iff_exists.mpr ⟨_, parsed⟩)
  apply Iff.intro
  · intro changedParsed found member
    obtain ⟨file, listed, relative, named, path, json, rfl⟩ := mem_collectRegistryJsonFiles.1 member
    have registered : RegistryFile location new file relative := ⟨listed, named, path, json⟩
    by_cases same : old.find file.path = new.find file.path
    · have before := oldParsed _ (registered.unchanged same.symm).collected
      exact before
    · obtain ⟨entry, inEntries, entryPath⟩ := lists.changed entries read file.path registered.holds json same
      have again := changedParsed _ (mem_filesToParse_of_listed lists read registered inEntries entryPath)
      rwa [registered.moved, Option.isSome_map] at again
  · intro newParsed found member
    obtain ⟨entry, listed, json, _, _, file, inNew, same, rfl⟩ := mem_filesToParse.1 member
    obtain ⟨relative, named, path⟩ := RegistryLocation.holds_iff.1 (lists.below entries read entry listed).1
    have registered : RegistryFile location new file relative :=
      ⟨inNew, named, same.trans path, by rw [same]; exact json⟩
    have walked := newParsed _ registered.collected
    simp only [← same]
    rw [registered.moved, Option.isSome_map]
    exact walked

end Files

section Stores

variable {past env : RegistryEnv} {location : RegistryLocation} {older store : RegistryStore}
variable {old new : RegistryTree} {entries : List RegistryDiffEntry} {output : String}
variable {oldRecords newRecords changed : List RegistryRecord} {name : String}

theorem desiredRecord_origin {fetchPayloads : Bool} {record : RegistryRecord} {path : Path}
    (declared : Declares path record) (named : path ≠ []) :
    (desiredRecord env fetchPayloads store record).originPath = path := by
  have settled := congrArg RegistryRecord.originPath
    (@settlePayload_clear env fetchPayloads (inheritedRecord store record))
  rw [desiredRecord_eq]
  apply settled.trans
  have kept (existing : List String) : orElseList record.originPath existing = path := by
    rw [declared.origin, orElseList]
    simp [named]
  simp only [inheritedRecord]
  split
  · exact declared.origin
  · exact (congrArg RegistryRecord.originPath (inheritPayload_clear _ _)).trans (kept _)

/-- Without a record to inherit from, a record of a file is written without a script. -/
theorem desiredRecord_readable {record : RegistryRecord} {path : Path} (declared : Declares path record)
    (unread : readRecord store (toLowerCopy record.name) = none) :
    (restoredRecord (desiredRecord env false store record)).isSome = true := by
  have bare : inheritedRecord store record = { record with name := toLowerCopy record.name } := by
    simp [inheritedRecord, unread]
  have unscripted : record.script = "" := by
    rw [← declared.payload]
  have source := congrArg RegistryRecord.source (@settlePayload_clear env false (inheritedRecord store record))
  have script : (settlePayload env false (inheritedRecord store record)).script = "" := by
    have located : (locateBundle env (inheritedRecord store record)).script = "" := by
      rw [bare, locateBundle]
      split
      · split <;> exact unscripted
      · exact unscripted
    simp only [settlePayload, Bool.false_eq_true, if_false]
    generalize locateBundle env (inheritedRecord store record) = found at located
    have dropped : (dropUntrusted env found).script = "" := by
      rw [dropUntrusted]
      split
      · rfl
      · exact located
    rw [dropMismatched]
    split
    · rfl
    · exact dropped
  rw [desiredRecord_eq]
  apply restoredRecord_isSome _ script
  have kept : (settlePayload env false (inheritedRecord store record)).source = record.source := by
    apply source.trans
    rw [bare]
    rfl
  rw [kept]
  exact declared.source

/-- What the full sync of the old commit left under a name. -/
theorem fullSync_get :
    (syncRecords past false true true [] oldRecords older).get name =
      ((lastNamed oldRecords name).map (desiredRecord past false older)).or
        (if (readRecord older name).isSome = true then none else older.get name) := by
  have readable : (∃ record, readRecord older name = some record ∧
      (true = true ∨ record.originPath ∈ ([] : List (List String)))) ↔
        (readRecord older name).isSome = true := by
    simp [Option.isSome_iff_exists]
  rw [syncRecords_get, if_congr readable rfl rfl]

theorem fullSync_unread (undeclared : lastNamed oldRecords name = none) :
    readRecord (syncRecords past false true true [] oldRecords older) name = none := by
  rw [readRecord, fullSync_get, undeclared, Option.map_none, Option.none_or]
  split
  · rfl
  · rename_i unread
    simpa [readRecord] using unread

theorem walkedPath_ne_nil {relative : Path} (named : relative ≠ []) : location.walkedPath relative ≠ [] := by
  simp [RegistryLocation.walkedPath, named]

theorem stored_of_old (held : store = syncRecords past false true true [] oldRecords older)
    {record : RegistryRecord} (last : lastNamed oldRecords name = some record) :
    store.get name = some (desiredRecord past false older record) := by
  rw [held, fullSync_get, last]
  rfl

/-- The path a readable record of the old commit was written with. -/
theorem origin_of_read {record : RegistryRecord} {path : Path} (declared : Declares path record)
    (named : path ≠ []) (stored : store.get name = some (desiredRecord past false older record))
    {restored : RegistryRecord} (read : readRecord store name = some restored) :
    restored.originPath = path := by
  rw [readRecord, stored, Option.bind_some] at read
  have same : restored.originPath = (desiredRecord past false older record).originPath := by
    rw [restoredRecord_eq_some read]
  rw [same]
  exact desiredRecord_origin declared named

/-- A name that no file declares any more. -/
theorem undeclared_iff (lists : Lists location output old new) (read : gitRegistryDiff output = some entries)
    (oldParsed : registryRecords location old = some oldRecords)
    (newParsed : registryRecords location new = some newRecords)
    (held : store = syncRecords past false true true [] oldRecords older)
    (gone : lastNamed newRecords name = none) :
    (∀ restored, readRecord store name = some restored →
        restored.originPath ∈ originPathsToDelete location entries) ↔
      ((readRecord store name).isSome = true → location.Spelled) := by
  cases last : lastNamed oldRecords name with
  | none =>
      have unread : readRecord store name = none := by
        rw [held]
        exact fullSync_unread last
      simp [unread]
  | some record =>
      obtain ⟨file, relative, own, registered, given, inside, declared⟩ :=
        lastNamed_registryRecords oldParsed last
      have stored := stored_of_old held last
      -- the file that declared the name is gone or says something else now
      have changed : old.find file.path ≠ new.find file.path := by
        intro same
        have stillThere := registryRecords_declares newParsed (registered.unchanged same) given
          (Option.isSome_iff_exists.mpr ⟨_, inside⟩)
        rw [gone] at stillThere
        cases stillThere
      obtain ⟨entry, member, samePath⟩ :=
        lists.changed entries read file.path registered.holds registered.json changed
      have spelled : location.walkedPath relative ∈ originPathsToDelete location entries ↔ location.Spelled := by
        rw [mem_originPathsToDelete]
        apply Iff.intro
        · intro found
          obtain ⟨other, listed, _, same⟩ := found
          obtain ⟨otherRelative, _, path⟩ :=
            RegistryLocation.holds_iff.1 (lists.below entries read other listed).1
          have plain : ∀ part ∈ otherRelative, Path.Plain part := by
            intro part inOther
            apply (lists.below entries read other listed).2
            rw [path]
            exact List.mem_append_right _ inOther
          rw [path] at same
          exact ((RegistryLocation.walkedPath_eq_normalPath registered.plain plain).mp same).1
        · intro normal
          refine ⟨entry, member, ?_, ?_⟩
          · rw [samePath]
            exact registered.json
          · rw [samePath, registered.path]
            exact (RegistryLocation.walkedPath_eq_normalPath registered.plain registered.plain).mpr
              ⟨normal, rfl⟩
      have origin {restored : RegistryRecord} (found : readRecord store name = some restored) :=
        origin_of_read declared (walkedPath_ne_nil registered.named) stored found
      apply Iff.intro
      · intro deleted readable
        obtain ⟨restored, found⟩ := Option.isSome_iff_exists.mp readable
        rw [← spelled, ← origin found]
        exact deleted restored found
      · intro normal restored found
        rw [origin found]
        exact spelled.mpr (normal (Option.isSome_iff_exists.mpr ⟨_, found⟩))

/-- A name that a changed file declares. -/
theorem changed_iff (lists : Lists location output old new) (read : gitRegistryDiff output = some entries)
    (newParsed : registryRecords location new = some newRecords)
    (changedParsed : changedRecords location new entries = some changed) {record other : RegistryRecord}
    (last : lastNamed newRecords name = some record) (lastChanged : lastNamed changed name = some other) :
    desiredRecord env false store other = desiredRecord env false store record ↔ other = record := by
  apply Iff.intro
  · intro same
    obtain ⟨file, relative, own, registered, given, inside, declared⟩ :=
      lastNamed_registryRecords newParsed last
    obtain ⟨otherFile, otherRelative, otherOwn, inner, otherRegistered, otherGiven, otherInside, rfl⟩ :=
      lastNamed_changedRecords lists read changedParsed lastChanged
    have otherDeclared : Declares (location.normalPath otherFile.path)
        (movedTo (location.normalPath otherFile.path) inner) := by
      have there := parseRegistryJsonFile_declares otherGiven inner (lastNamed_mem otherInside)
      exact ⟨rfl, there.name, there.source, by rw [← there.payload]; rfl⟩
    have otherNamed : location.normalPath otherFile.path ≠ [] := by
      simp [otherRegistered.normalPath, otherRegistered.named]
    have origins := congrArg RegistryRecord.originPath same
    rw [desiredRecord_origin declared (walkedPath_ne_nil registered.named),
      desiredRecord_origin otherDeclared otherNamed] at origins
    have spelled := origins.symm
    rw [otherRegistered.path,
      RegistryLocation.walkedPath_eq_normalPath registered.plain otherRegistered.plain] at spelled
    obtain ⟨_, rfl⟩ := spelled
    have sameFile : otherFile = file := by
      have found := otherRegistered.find
      rw [otherRegistered.path, ← registered.path, registered.find] at found
      exact (Option.some.inj found).symm
    subst sameFile
    rw [given] at otherGiven
    cases otherGiven
    rw [inside] at otherInside
    cases otherInside
    rw [origins, ← declared.origin]
    rfl
  · intro same
    rw [same]

/-- What a further sync writes for a record that is stored already. -/
theorem desiredRecord_again {record : RegistryRecord}
    (written : store.get (toLowerCopy record.name) = some (desiredRecord past false older record))
    (readable : (restoredRecord (desiredRecord past false older record)).isSome = true) :
    desiredRecord env false store record = settlePayload env false (desiredRecord past false older record) := by
  rw [desiredRecord_eq, inheritedRecord_self written readable]

/-- A name that only files declare which did not change. -/
theorem unchanged_iff (lists : Lists location output old new) (read : gitRegistryDiff output = some entries)
    (oldParsed : registryRecords location old = some oldRecords)
    (newParsed : registryRecords location new = some newRecords)
    (changedParsed : changedRecords location new entries = some changed)
    (held : store = syncRecords past false true true [] oldRecords older) {record : RegistryRecord}
    (last : lastNamed newRecords name = some record) (unchanged : lastNamed changed name = none) :
    ((∀ restored, readRecord store name = some restored →
        restored.originPath ∉ originPathsToDelete location entries) ∧
      store.get name = some (desiredRecord env false store record)) ↔
      (lastNamed oldRecords name = some record ∧ ∃ stored, store.get name = some stored ∧ Settled env stored) := by
  obtain ⟨file, relative, own, registered, given, inside, declared⟩ :=
    lastNamed_registryRecords newParsed last
  have named := lastNamed_name last
  -- the file is not listed, or a changed file would declare the name
  have unlisted : ∀ entry ∈ entries, entry.path ≠ file.path := by
    intro entry member same
    have declares := changedRecords_declares lists read changedParsed registered given
      (Option.isSome_iff_exists.mpr ⟨_, inside⟩) member same
    rw [unchanged] at declares
    cases declares
  have sameFile : old.find file.path = new.find file.path := by
    by_contra changed
    obtain ⟨entry, member, same⟩ := lists.changed entries read file.path registered.holds registered.json changed
    exact unlisted entry member same
  apply Iff.intro
  · intro holds
    obtain ⟨_, stored⟩ := holds
    have readable : (readRecord store name).isSome = true := by
      cases found : readRecord store name with
      | some restored => rfl
      | none =>
          have written := @desiredRecord_readable env store record _ declared (named ▸ found)
          rw [readRecord, stored, Option.bind_some] at found
          rw [found] at written
          cases written
    cases lastOld : lastNamed oldRecords name with
    | none =>
        have unread : readRecord store name = none := by
          rw [held]
          exact fullSync_unread lastOld
        rw [unread] at readable
        cases readable
    | some before =>
        have written := stored_of_old held lastOld
        obtain ⟨oldFile, oldRelative, oldOwn, oldRegistered, oldGiven, oldInside, oldDeclared⟩ :=
          lastNamed_registryRecords oldParsed lastOld
        have origins : location.walkedPath oldRelative = location.walkedPath relative := by
          rw [← desiredRecord_origin oldDeclared (walkedPath_ne_nil oldRegistered.named),
            ← desiredRecord_origin declared (walkedPath_ne_nil registered.named)]
          exact congrArg RegistryRecord.originPath (Option.some.inj (written.symm.trans stored))
        have sameRelative := RegistryLocation.walkedPath_inj origins
        subst sameRelative
        have files : oldFile = file := by
          have found := oldRegistered.find
          rw [oldRegistered.path, ← registered.path, sameFile, registered.find] at found
          exact (Option.some.inj found).symm
        subst files
        rw [given] at oldGiven
        cases oldGiven
        rw [inside] at oldInside
        cases oldInside
        refine ⟨rfl, _, stored, ?_⟩
        have restorable : (restoredRecord (desiredRecord env false store record)).isSome = true := by
          rw [readRecord, stored, Option.bind_some] at readable
          exact readable
        rw [← settlePayload_eq_self restorable]
        have same : desiredRecord past false older record = desiredRecord env false store record :=
          Option.some.inj (written.symm.trans stored)
        have again := @desiredRecord_again past env older store record (named ▸ written) (same ▸ restorable)
        rw [← same]
        exact again.symm.trans same.symm
  · intro holds
    obtain ⟨lastOld, stored, found, settled⟩ := holds
    have written := stored_of_old held lastOld
    have same : stored = desiredRecord past false older record := Option.some.inj (found.symm.trans written)
    subst same
    apply And.intro
    · intro restored readBack deleted
      rw [origin_of_read declared (walkedPath_ne_nil registered.named) written readBack,
        mem_originPathsToDelete] at deleted
      obtain ⟨entry, member, _, normal⟩ := deleted
      obtain ⟨below, plain⟩ := lists.below entries read entry member
      obtain ⟨otherRelative, _, path⟩ := RegistryLocation.holds_iff.1 below
      have otherPlain : ∀ part ∈ otherRelative, Path.Plain part := by
        intro part inOther
        apply plain
        rw [path]
        exact List.mem_append_right _ inOther
      rw [path, RegistryLocation.walkedPath_eq_normalPath registered.plain otherPlain] at normal
      apply unlisted entry member
      rw [path, registered.path, normal.2]
    · have again := @desiredRecord_again past env older store record (named ▸ written) settled.readable
      rw [again, (settlePayload_eq_self settled.readable).mpr settled]
      exact written

/-- The two ways on one name. -/
theorem agreesOn_iff (lists : Lists location output old new) (read : gitRegistryDiff output = some entries)
    (oldParsed : registryRecords location old = some oldRecords)
    (newParsed : registryRecords location new = some newRecords)
    (changedParsed : changedRecords location new entries = some changed)
    (held : store = syncRecords past false true true [] oldRecords older) :
    (syncRecords env false false true (originPathsToDelete location entries) changed store).get name =
        (syncRecords env false true true [] newRecords store).get name ↔
      AgreesOn env location store oldRecords newRecords changed name := by
  rw [fullSync_get, syncRecords_get, AgreesOn]
  cases last : lastNamed newRecords name with
  | none =>
      have undeclared : lastNamed changed name = none := by
        cases lastChanged : lastNamed changed name with
        | none => rfl
        | some other =>
            obtain ⟨file, relative, own, inner, registered, given, inside, _⟩ :=
              lastNamed_changedRecords lists read changedParsed lastChanged
            have declares := registryRecords_declares newParsed registered given
              (Option.isSome_iff_exists.mpr ⟨_, inside⟩)
            rw [last] at declares
            cases declares
      rw [undeclared, ← undeclared_iff lists read oldParsed newParsed held last]
      simp only [Option.map_none, Option.none_or]
      cases found : readRecord store name with
      | none => simp
      | some restored =>
          have present : store.get name ≠ none := by
            intro missing
            rw [readRecord, missing] at found
            cases found
          by_cases deleted : restored.originPath ∈ originPathsToDelete location entries
          · simp [deleted]
          · simp [deleted, present]
  | some record =>
      cases lastChanged : lastNamed changed name with
      | some other =>
          simp only [Option.map_some, Option.some_or, Option.some.injEq]
          exact changed_iff lists read newParsed changedParsed last lastChanged
      | none =>
          simp only [Option.map_none, Option.none_or, Option.map_some, Option.some_or]
          rw [← unchanged_iff lists read oldParsed newParsed changedParsed held last lastChanged]
          by_cases deleted : ∃ restored, readRecord store name = some restored ∧
              restored.originPath ∈ originPathsToDelete location entries
          · obtain ⟨restored, found, listed⟩ := deleted
            simp [found, listed]
          · have kept : ∀ restored, readRecord store name = some restored →
                restored.originPath ∉ originPathsToDelete location entries :=
              fun restored found listed => deleted ⟨restored, found, listed⟩
            simp only [Bool.false_eq_true, false_or, deleted, if_false]
            exact ⟨fun same => ⟨kept, same⟩, fun both => both.2⟩

end Stores

/-- Nothing on disk and nothing to fetch. -/
def bareEnv : RegistryEnv where
  sha256Hex text := text
  bundlePayload _ _ := none
  resolveBundlePath _ _ := none
  fetchPluginPayload _ _ := none

def registryLocation : RegistryLocation where
  repository := ["", "cache", "main-registry"]
  pluginsPath := ["registry"]
  inner := ["registry"]
  plain := by simp [Path.Plain]
  within := by decide

/-- A registry file that also declares the alias `tool`. -/
def toolFile (name : String) : TreeFile where
  path := ["registry", name ++ ".json"]
  content := some
    { schemaVersion := 1, name := some name, source := some "https://example.org/plugin.lua",
      aliases := [{ text := "tool" }] }

def twoToolFiles : RegistryTree where
  files := [toolFile "apt", toolFile "dnf"]
  named := by simp [toolFile, Path.Plain]
  distinct := by simp [toolFile]

def oneToolFile : RegistryTree where
  files := [toolFile "apt"]
  named := by simp [toolFile, Path.Plain]
  distinct := by simp [toolFile]

theorem deletedFile_read : gitRegistryDiff "D\tregistry/dnf.json\n" = some [⟨'D', ["registry", "dnf.json"]⟩] := by
  decide +kernel

theorem deletedFile_lists : Lists registryLocation "D\tregistry/dnf.json\n" twoToolFiles oneToolFile := by
  apply Lists.mk
  · intro entries read path _ _ different
    rw [deletedFile_read] at read
    cases read
    refine ⟨_, List.mem_singleton.mpr rfl, ?_⟩
    by_contra other
    apply different
    simp [RegistryTree.find, twoToolFiles, oneToolFile, toolFile, List.find?_cons, other]
  · intro entries read entry member _
    rw [deletedFile_read] at read
    cases read
    cases List.mem_singleton.mp member
    decide
  · intro entries read entry member
    rw [deletedFile_read] at read
    cases read
    cases List.mem_singleton.mp member
    exact ⟨by decide, by simp [Path.Plain]⟩

end ReqPack.Registry
