import ReqPack.Archive.Layers

/-! # An archive replaced by its content

`extract_archive_in_place` extracts an archive next to itself and moves what came out onto
its path.  The file must survive a failure, and no directory of the extraction may.
-/

namespace ReqPack.Archive

open ReqPack.Data ReqPack.Planner

section InPlace

variable (outcomes : Outcomes) (options : ArchiveExtractionOptions) (target : ArchivePath)

/-- `remove_cleanup_paths_quietly`. -/
def removeQuietly : List String → Entries → Entries
  | [], entries => entries
  | directory :: directories, entries =>
      removeQuietly directories
        (if (entries directory).isNone then entries
          else Function.update entries directory (outcomes.leftover directory))

/-- The path names an archive or a wrapper around something. -/
def isArchive (path : String) : Bool := isGenericArchivePath path || isArchiveWrapperPath path

/-- What `process_archive_layers` makes of the archive. -/
def openArchive (entries : Entries) : Layered := processArchiveLayers outcomes options target .given 0 false entries

/-- `extract_archive_in_place` from the removal of the archive on. -/
def replaceArchive (place : Place) (cleanupPaths : List String) (entries : Entries) : Entries × Except String Bool :=
  if !outcomes.removes then
    (removeQuietly outcomes cleanupPaths entries,
      .error ("failed to replace archive with extracted directory: " ++ target.path))
  else
    let removed := Function.update entries target.name none
    match if outcomes.renames then place.read target removed else none with
    | none =>
        (removeQuietly outcomes cleanupPaths removed,
          .error ("failed to finalize extracted archive directory: " ++ target.path))
    | some tree =>
        (removeQuietly outcomes (cleanupPaths.filter fun directory => place ≠ .made directory)
          (Function.update (place.takeOut target removed) target.name (some tree)), .ok true)

def extractArchiveInPlace (entries : Entries) : Entries × Except String Bool :=
  if !isArchive target.path then (entries, .ok false)
  else
    let layered := openArchive outcomes options target entries
    match layered.result with
    | .error message => (layered.entries, .error message)
    | .ok processed =>
        if !processed.changed || processed.place = .given then
          (removeQuietly outcomes layered.cleanupPaths layered.entries, .ok false)
        else replaceArchive outcomes target processed.place layered.cleanupPaths layered.entries

/-! ## A clean end -/

/-- A failure leaves the file as it was, a success has the extracted content in its place,
and neither leaves a directory behind that was not there before. -/
structure EndsCleanly (before : Entries) : Prop where
  kept : (extractArchiveInPlace outcomes options target before).2 ≠ .ok true →
    (extractArchiveInPlace outcomes options target before).1 target.name = before target.name
  replaced : (extractArchiveInPlace outcomes options target before).2 = .ok true →
    ∃ processed tree, (openArchive outcomes options target before).result = .ok processed ∧
      processed.place.read target (openArchive outcomes options target before).entries = some tree ∧
      (extractArchiveInPlace outcomes options target before).1 target.name = some tree
  nothingLeft : ∀ name, name ≠ target.name → before name = none →
    (extractArchiveInPlace outcomes options target before).1 name = none

/-- What has to go right.  A wrapper must not be opened in vain, the extracted content can be
moved once the archive is gone, and directories that are removed are removed entirely. -/
structure GoesRight (before : Entries) : Prop where
  wrapper : ∀ message, (openArchive outcomes options target before).result = .error message →
    isArchiveWrapperPath target.path = true → makeUniqueDirectory outcomes "decrypt" 0 before = none
  extraction : ∀ message, (openArchive outcomes options target before).result = .error message →
    isArchiveWrapperPath target.path = false →
      ∀ directory, makeUniqueDirectory outcomes "extract" 0 before = some directory → outcomes.leftover directory = none
  move : ∀ processed, (openArchive outcomes options target before).result = .ok processed → outcomes.removes = true →
    outcomes.renames = true ∧ processed.place.read target (openArchive outcomes options target before).entries ≠ none
  cleanup : ∀ processed, (openArchive outcomes options target before).result = .ok processed →
    ∀ directory ∈ (openArchive outcomes options target before).cleanupPaths,
      ¬(outcomes.removes = true ∧ processed.place = .made directory) → outcomes.leftover directory = none

end InPlace

section Removal

variable {outcomes : Outcomes} {directories : List String} {entries : Entries} {name : String}

theorem removeQuietly_frame (outside : name ∉ directories) : removeQuietly outcomes directories entries name = entries name := by
  induction directories generalizing entries with
  | nil => rfl
  | cons directory directories ih =>
      rw [List.mem_cons, not_or] at outside
      rw [removeQuietly, ih outside.2]
      split
      · rfl
      · exact Function.update_of_ne outside.1 _ _

theorem removeQuietly_present (nodup : directories.Nodup) (member : name ∈ directories) (present : entries name ≠ none) :
    removeQuietly outcomes directories entries name = outcomes.leftover name := by
  induction directories generalizing entries with
  | nil => cases member
  | cons directory directories ih =>
      rw [List.nodup_cons] at nodup
      rw [removeQuietly]
      rcases List.mem_cons.mp member with rfl | later
      · rw [removeQuietly_frame nodup.1, if_neg (by simpa using present)]
        exact Function.update_self _ _ _
      · apply ih nodup.2 later
        have other : name ≠ directory := by
          rintro rfl
          exact nodup.1 later
        split
        · exact present
        · rwa [Function.update_of_ne other]

end Removal

section Moving

variable {target : ArchivePath} {entries : Entries} {place : Place} {directory name : String}

theorem Place.read_update (lies : place.directory = some directory) (other : name ≠ directory) (tree : Option Tree) :
    place.read target (Function.update entries name tree) = place.read target entries := by
  cases place with
  | given => cases lies
  | made found =>
      cases lies
      exact Function.update_of_ne (Ne.symm other) _ _
  | inside found file =>
      cases lies
      rw [Place.read, Place.read, Function.update_of_ne (Ne.symm other)]

theorem Place.takeOut_inside (directory file : String) :
    (Place.inside directory file).takeOut target entries = entries ∨
      ∃ files, (Place.inside directory file).takeOut target entries =
        Function.update entries directory (some (.directory files)) := by
  rw [Place.takeOut]
  split
  · exact Or.inr ⟨_, rfl⟩
  · exact Or.inl rfl

theorem Place.takeOut_frame (lies : place.directory = some directory) (other : name ≠ directory) :
    place.takeOut target entries name = entries name := by
  cases place with
  | given => cases lies
  | made found =>
      cases lies
      exact Function.update_of_ne other _ _
  | inside found file =>
      cases lies
      rcases Place.takeOut_inside directory file with same | ⟨files, same⟩
      · rw [same]
      · rw [same, Function.update_of_ne other]

/-- A directory stays when a file is moved out of it. -/
theorem Place.takeOut_stays (lies : place.directory = some directory) (stays : place ≠ .made directory)
    (present : entries directory ≠ none) : place.takeOut target entries directory ≠ none := by
  cases place with
  | given => cases lies
  | made found =>
      cases lies
      exact absurd rfl stays
  | inside found file =>
      cases lies
      rcases Place.takeOut_inside directory file with same | ⟨files, same⟩
      · rwa [same]
      · rw [same, Function.update_self]
        exact Option.some_ne_none _

end Moving

section Replacing

variable {outcomes : Outcomes} {options : ArchiveExtractionOptions} {target : ArchivePath} {before : Entries}

/-- What is known once all layers were opened. -/
structure Opened (layered : Layered) (target : ArchivePath) (before : Entries) (place : Place) (directory : String) :
    Prop where
  own : layered.OwnDirectories before
  present : ∀ other ∈ layered.cleanupPaths, layered.entries other ≠ none
  outside : target.name ∉ layered.cleanupPaths
  member : directory ∈ layered.cleanupPaths
  lies : place.directory = some directory

variable {layered : Layered} {place : Place} {directory : String}

theorem Opened.other (opened : Opened layered target before place directory) : target.name ≠ directory := by
  intro same
  have member := opened.member
  rw [← same] at member
  exact opened.outside member

theorem Opened.file (opened : Opened layered target before place directory) :
    layered.entries target.name = before target.name :=
  opened.own.frame target.name opened.outside

/-- When the archive cannot be removed it stays, and so does what cannot be removed. -/
theorem replaceArchive_kept (opened : Opened layered target before place directory) (kept : outcomes.removes = false) :
    (replaceArchive outcomes target place layered.cleanupPaths layered.entries).2 ≠ .ok true ∧
      (replaceArchive outcomes target place layered.cleanupPaths layered.entries).1 target.name = before target.name ∧
      ((∀ name, name ≠ target.name → before name = none →
          (replaceArchive outcomes target place layered.cleanupPaths layered.entries).1 name = none) ↔
        ∀ other ∈ layered.cleanupPaths, outcomes.leftover other = none) := by
  simp only [replaceArchive, kept, Bool.not_false, if_true]
  refine ⟨by simp, (removeQuietly_frame opened.outside).trans opened.file, ?_, ?_⟩
  · intro gone other member
    have apart : other ≠ target.name := by
      rintro rfl
      exact opened.outside member
    have absent := gone other apart (opened.own.fresh other member)
    rwa [removeQuietly_present opened.own.nodup member (opened.present other member)] at absent
  · intro empty name apart absent
    by_cases member : name ∈ layered.cleanupPaths
    · rw [removeQuietly_present opened.own.nodup member (opened.present name member)]
      exact empty name member
    · rw [removeQuietly_frame member, opened.own.frame name member]
      exact absent

/-- The archive is gone when nothing can be moved to its place. -/
theorem replaceArchive_lost (opened : Opened layered target before place directory) (removed : outcomes.removes = true)
    (stuck : ¬(outcomes.renames = true ∧ place.read target layered.entries ≠ none)) :
    (replaceArchive outcomes target place layered.cleanupPaths layered.entries).2 ≠ .ok true ∧
      (replaceArchive outcomes target place layered.cleanupPaths layered.entries).1 target.name = none := by
  have nothing : (if outcomes.renames = true then
      place.read target (Function.update layered.entries target.name none) else none) = none := by
    rw [Place.read_update opened.lies opened.other]
    split
    · rename_i renames
      by_contra found
      exact stuck ⟨renames, found⟩
    · rfl
  simp only [replaceArchive, removed, Bool.not_true, Bool.false_eq_true, if_false, nothing]
  refine ⟨by simp, ?_⟩
  rw [removeQuietly_frame opened.outside]
  exact Function.update_self _ _ _

/-- The content takes the place of the archive, and of the other directories stays what
cannot be removed. -/
theorem replaceArchive_moved (opened : Opened layered target before place directory) (removed : outcomes.removes = true)
    (renamed : outcomes.renames = true) {tree : Tree} (found : place.read target layered.entries = some tree) :
    (replaceArchive outcomes target place layered.cleanupPaths layered.entries).2 = .ok true ∧
      (replaceArchive outcomes target place layered.cleanupPaths layered.entries).1 target.name = some tree ∧
      ((∀ name, name ≠ target.name → before name = none →
          (replaceArchive outcomes target place layered.cleanupPaths layered.entries).1 name = none) ↔
        ∀ other ∈ layered.cleanupPaths, place ≠ .made other → outcomes.leftover other = none) := by
  have moved : (if outcomes.renames = true then
      place.read target (Function.update layered.entries target.name none) else none) = some tree := by
    rw [Place.read_update opened.lies opened.other, if_pos renamed, found]
  simp only [replaceArchive, removed, Bool.not_true, Bool.false_eq_true, if_false, moved]
  have filtered : target.name ∉ layered.cleanupPaths.filter fun other => place ≠ .made other := fun member =>
    opened.outside (List.mem_of_mem_filter member)
  have nodup : (layered.cleanupPaths.filter fun other => place ≠ .made other).Nodup := opened.own.nodup.filter _
  -- Away from the archive the disk is the one before, without what was taken out.
  have elsewhere : ∀ name, name ≠ target.name → Function.update (place.takeOut target
      (Function.update layered.entries target.name none)) target.name (some tree) name =
        place.takeOut target (Function.update layered.entries target.name none) name := fun name apart =>
    Function.update_of_ne apart _ _
  have stays : ∀ other ∈ layered.cleanupPaths, place ≠ .made other →
      place.takeOut target (Function.update layered.entries target.name none) other ≠ none := by
    intro other member still
    have apart : other ≠ target.name := by
      rintro rfl
      exact opened.outside member
    have present : Function.update layered.entries target.name none other ≠ none := by
      rw [Function.update_of_ne apart]
      exact opened.present other member
    by_cases here : other = directory
    · subst here
      exact Place.takeOut_stays opened.lies still present
    · rwa [Place.takeOut_frame opened.lies here]
  refine ⟨True.intro, ?_, ?_, ?_⟩
  · rw [removeQuietly_frame filtered]
    exact Function.update_self _ _ _
  · intro gone other member still
    have apart : other ≠ target.name := by
      rintro rfl
      exact opened.outside member
    have absent := gone other apart (opened.own.fresh other member)
    rwa [removeQuietly_present nodup (by simpa using ⟨member, still⟩)
      (by rw [elsewhere other apart]; exact stays other member still)] at absent
  · intro empty name apart absent
    by_cases member : name ∈ layered.cleanupPaths
    · by_cases still : place = .made name
      · rw [removeQuietly_frame (by simp [still]), elsewhere name apart, still]
        exact Function.update_self _ _ _
      · rw [removeQuietly_present nodup (by simpa using ⟨member, still⟩)
          (by rw [elsewhere name apart]; exact stays name member still)]
        exact empty name member still
    · have other : name ≠ directory := by
        rintro rfl
        exact member opened.member
      rw [removeQuietly_frame (fun inside => member (List.mem_of_mem_filter inside)), elsewhere name apart,
        Place.takeOut_frame opened.lies other, Function.update_of_ne apart, opened.own.frame name member]
      exact absent

theorem opened_of_result {processed : ProcessedArchivePath} (archive : isArchive target.path = true)
    (present : before target.name ≠ none)
    (result : (openArchive outcomes options target before).result = .ok processed) :
    processed.changed = true ∧ ∃ directory,
      Opened (openArchive outcomes options target before) target before processed.place directory := by
  have own : (openArchive outcomes options target before).OwnDirectories before := processArchiveLayers_own
  rw [isArchive, Bool.or_eq_true] at archive
  obtain ⟨changed, directory, member, lies⟩ :=
    @processArchiveLayers_changed outcomes options target .given 0 false before processed archive result
  refine ⟨changed, directory, own, ?_, ?_, member, lies⟩
  · intro other inside
    obtain ⟨files, found⟩ := own.stays processed result other inside
    rw [found]
    exact Option.some_ne_none _
  · exact fun inside => present (own.fresh target.name inside)

theorem extractArchiveInPlace_failed {message : String} (archive : isArchive target.path = true)
    (failed : (openArchive outcomes options target before).result = .error message) :
    extractArchiveInPlace outcomes options target before =
      ((openArchive outcomes options target before).entries, .error message) := by
  simp only [extractArchiveInPlace, archive, Bool.not_true, Bool.false_eq_true, if_false, failed]

theorem extractArchiveInPlace_opened {processed : ProcessedArchivePath} {directory : String}
    (archive : isArchive target.path = true)
    (result : (openArchive outcomes options target before).result = .ok processed) (changed : processed.changed = true)
    (opened : Opened (openArchive outcomes options target before) target before processed.place directory) :
    extractArchiveInPlace outcomes options target before =
      replaceArchive outcomes target processed.place (openArchive outcomes options target before).cleanupPaths
        (openArchive outcomes options target before).entries := by
  have elsewhere : processed.place ≠ .given := by
    intro given
    have lies := opened.lies
    rw [given] at lies
    cases lies
  simp only [extractArchiveInPlace, archive, Bool.not_true, Bool.false_eq_true, if_false, result, changed, elsewhere,
    decide_false, Bool.or_self]

theorem endsCleanly_of_plain (plain : isArchive target.path ≠ true) : EndsCleanly outcomes options target before := by
  have same : extractArchiveInPlace outcomes options target before = (before, .ok false) := by
    simp only [extractArchiveInPlace, plain, Bool.not_false, if_true]
  refine ⟨?_, ?_, ?_⟩
  · intro _
    rw [same]
  · intro succeeded
    rw [same] at succeeded
    cases succeeded
  · intro name _ absent
    rw [same]
    exact absent

/-- The layers could not be opened. -/
theorem endsCleanly_failed_iff {message : String} (archive : isArchive target.path = true)
    (present : before target.name ≠ none)
    (failed : (openArchive outcomes options target before).result = .error message) :
    EndsCleanly outcomes options target before ↔ GoesRight outcomes options target before := by
  have own : (openArchive outcomes options target before).OwnDirectories before := processArchiveLayers_own
  have same := extractArchiveInPlace_failed archive failed
  have gone := processArchiveLayers_failed failed
  apply Iff.intro
  · intro clean
    have nothing : ∀ name, before name = none → (openArchive outcomes options target before).entries name = none := by
      intro name absent
      have apart : name ≠ target.name := by
        rintro rfl
        exact present absent
      have left := clean.nothingLeft name apart absent
      rwa [same] at left
    obtain ⟨wrapper, extraction⟩ := gone.1 nothing
    refine ⟨fun _ _ => wrapper, fun _ _ => extraction, ?_, ?_⟩
    · intro processed opened
      rw [failed] at opened
      cases opened
    · intro processed opened
      rw [failed] at opened
      cases opened
  · intro right
    have nothing := gone.2 ⟨right.wrapper message failed, right.extraction message failed⟩
    refine ⟨?_, ?_, ?_⟩
    · intro _
      rw [same]
      exact own.frame target.name fun inside => present (own.fresh target.name inside)
    · intro succeeded
      rw [same] at succeeded
      cases succeeded
    · intro name _ absent
      rw [same]
      exact nothing name absent

section Replaced

variable {processed : ProcessedArchivePath}
variable (result : (openArchive outcomes options target before).result = .ok processed)
variable (opened : Opened (openArchive outcomes options target before) target before processed.place directory)
variable (same : extractArchiveInPlace outcomes options target before =
  replaceArchive outcomes target processed.place (openArchive outcomes options target before).cleanupPaths
    (openArchive outcomes options target before).entries)

include result opened same

/-- The archive could not be removed. -/
theorem endsCleanly_kept_iff (removes : outcomes.removes = false) :
    EndsCleanly outcomes options target before ↔ GoesRight outcomes options target before := by
  obtain ⟨failed, kept, left⟩ := replaceArchive_kept opened removes
  apply Iff.intro
  · intro clean
    have nothing := clean.nothingLeft
    rw [same] at nothing
    refine ⟨by simp [result], by simp [result], ?_, ?_⟩
    · intro _ _ goes
      rw [removes] at goes
      cases goes
    · intro _ _ other member _
      exact left.1 nothing other member
  · intro right
    refine ⟨?_, ?_, ?_⟩
    · intro _
      rw [same]
      exact kept
    · intro succeeded
      rw [same] at succeeded
      exact absurd succeeded failed
    · rw [same]
      exact left.2 fun other member => right.cleanup processed result other member (by simp [removes])

/-- The content took the place of the archive. -/
theorem endsCleanly_moved_iff (removes : outcomes.removes = true)
    (moves : outcomes.renames = true ∧ processed.place.read target (openArchive outcomes options target before).entries ≠ none) :
    EndsCleanly outcomes options target before ↔ GoesRight outcomes options target before := by
  obtain ⟨tree, found⟩ := Option.ne_none_iff_exists'.mp moves.2
  obtain ⟨succeeded, holds, left⟩ := replaceArchive_moved opened removes moves.1 found
  apply Iff.intro
  · intro clean
    have nothing := clean.nothingLeft
    rw [same] at nothing
    refine ⟨by simp [result], by simp [result], ?_, ?_⟩
    · intro other found _
      rw [result] at found
      cases found
      exact moves
    · intro other found further member still
      rw [result] at found
      cases found
      exact left.1 nothing further member fun here => still ⟨removes, here⟩
  · intro right
    refine ⟨?_, fun _ => ⟨processed, tree, result, found, ?_⟩, ?_⟩
    · intro failed
      rw [same] at failed
      exact absurd succeeded failed
    · rw [same]
      exact holds
    · rw [same]
      exact left.2 fun other member still => right.cleanup processed result other member fun both => still both.2

/-- The archive is gone and nothing stands in its place. -/
theorem endsCleanly_lost_iff (present : before target.name ≠ none) (removes : outcomes.removes = true)
    (stuck : ¬(outcomes.renames = true ∧
      processed.place.read target (openArchive outcomes options target before).entries ≠ none)) :
    EndsCleanly outcomes options target before ↔ GoesRight outcomes options target before := by
  obtain ⟨failed, lost⟩ := replaceArchive_lost opened removes stuck
  apply Iff.intro
  · intro clean
    have kept := clean.kept
    rw [same, lost] at kept
    exact absurd (kept failed).symm present
  · intro right
    exact absurd (right.move processed result removes) stuck

end Replaced

/-- The end is clean exactly when everything goes right that has to. -/
theorem extractArchiveInPlace_clean_iff (outcomes : Outcomes) (options : ArchiveExtractionOptions) (target : ArchivePath)
    (before : Entries) (present : before target.name ≠ none) :
    EndsCleanly outcomes options target before ↔
      (isArchive target.path = true → GoesRight outcomes options target before) := by
  by_cases archive : isArchive target.path = true
  · rw [imp_iff_right archive]
    cases result : (openArchive outcomes options target before).result with
    | error message => exact endsCleanly_failed_iff archive present result
    | ok processed =>
        obtain ⟨changed, directory, opened⟩ := opened_of_result archive present result
        have same := extractArchiveInPlace_opened archive result changed opened
        cases removes : outcomes.removes with
        | false => exact endsCleanly_kept_iff result opened same removes
        | true =>
            by_cases moves : outcomes.renames = true ∧
                processed.place.read target (openArchive outcomes options target before).entries ≠ none
            · exact endsCleanly_moved_iff result opened same removes moves
            · exact endsCleanly_lost_iff result opened same present removes moves
  · exact iff_of_true (endsCleanly_of_plain archive) fun here => absurd here archive

end Replacing

/-- An extraction into a directory goes right when nothing else fails. -/
theorem goesRight_of_made {outcomes : Outcomes} {options : ArchiveExtractionOptions} {target : ArchivePath}
    {before : Entries} {directory : String} (archive : isArchive target.path = true) (present : before target.name ≠ none)
    (gone : ∀ directory, outcomes.leftover directory = none) (renames : outcomes.renames = true)
    (result : (openArchive outcomes options target before).result = .ok ⟨.made directory, true⟩) :
    GoesRight outcomes options target before := by
  obtain ⟨-, other, opened⟩ := opened_of_result archive present result
  obtain rfl : directory = other := Option.some.inj opened.lies
  refine ⟨?_, fun _ _ _ other _ => gone other, ?_, fun _ _ other _ _ => gone other⟩
  · intro message failed
    rw [result] at failed
    cases failed
  · intro processed found _
    rw [result] at found
    cases found
    exact ⟨renames, opened.present directory opened.member⟩

/-- Every tool ends with the same code and leaves one file; what is removed is gone. -/
def toolsEnding (exitCode : Int) : Outcomes where
  uniqueName stem _ := some (stem ++ "-a1b2c3")
  run _ _ := some { exitCode := exitCode, output := "readme\n", left := [("readme", .file [1])] }
  prompt _ := none
  inspects := true
  leftover _ := none
  removes := true
  renames := true

def onlyFile (name : String) : Entries := fun other => if other = name then some (.file [0]) else none

def zipArchive : ArchivePath := ⟨"/work/tool.zip", "/work"⟩

theorem clean_extraction : EndsCleanly (toolsEnding 0) {} zipArchive (onlyFile "tool.zip") := by
  have archive : isArchive zipArchive.path = true := by decide +kernel
  have present : onlyFile "tool.zip" zipArchive.name ≠ none := by
    have name : zipArchive.name = "tool.zip" := by decide +kernel
    rw [name]
    exact Option.some_ne_none _
  have result : (openArchive (toolsEnding 0) {} zipArchive (onlyFile "tool.zip")).result =
      .ok ⟨.made "extract-a1b2c3", true⟩ := by decide +kernel
  exact (extractArchiveInPlace_clean_iff (toolsEnding 0) {} zipArchive (onlyFile "tool.zip") present).2 fun _ =>
    goesRight_of_made archive present (fun _ => rfl) rfl result

def wrappedArchive : ArchivePath := ⟨"/work/tool.zip.gpg", "/work"⟩

/-- The directory of a wrapper that cannot be decrypted stays. -/
theorem refused_wrapper_leaves_directory :
    onlyFile "tool.zip.gpg" wrappedArchive.name = some (.file [0]) ∧
      ¬EndsCleanly (toolsEnding 2) {} wrappedArchive (onlyFile "tool.zip.gpg") := by
  have name : wrappedArchive.name = "tool.zip.gpg" := by decide +kernel
  refine ⟨?_, fun clean => ?_⟩
  · rw [name]
    rfl
  · have apart : "decrypt-a1b2c3" ≠ wrappedArchive.name := by
      rw [name]
      decide
    have gone := clean.nothingLeft "decrypt-a1b2c3" apart rfl
    have stays : ((extractArchiveInPlace (toolsEnding 2) {} wrappedArchive (onlyFile "tool.zip.gpg")).1
        "decrypt-a1b2c3").isSome = true := by decide +kernel
    rw [gone] at stays
    cases stays

end ReqPack.Archive
