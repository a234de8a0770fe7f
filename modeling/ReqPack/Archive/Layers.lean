import Mathlib.Logic.Function.Basic
import ReqPack.Archive.Tools

/-! # The layers of an archive

`process_archive_layers` takes one encryption wrapper after another off a file and then
extracts the archive in it.  Every layer works in a directory of its own under the
working root.
-/

namespace ReqPack.Archive

open ReqPack.Data ReqPack.Planner

/-- The names in the working root. -/
abbrev Entries := String → Option Tree

/-- The path that was given; its directory is the working root. -/
structure ArchivePath where
  /-- the path as it was written -/
  path : String
  workingRoot : String

/-- Where the content of a layer lies. -/
inductive Place
  | given
  | made (directory : String)
  | inside (directory name : String)
deriving DecidableEq, Repr

section Places

variable (target : ArchivePath)

def ArchivePath.name : String := fileName target.path

def Place.path : Place → String
  | given => target.path
  | made directory => target.workingRoot ++ "/" ++ directory
  | inside directory name => target.workingRoot ++ "/" ++ directory ++ "/" ++ name

/-- The file name of a place. -/
def Place.name : Place → String
  | given => target.name
  | made directory => directory
  | inside _ name => name

def Place.read (entries : Entries) : Place → Option Tree
  | given => entries target.name
  | made directory => entries directory
  | inside directory name =>
      match entries directory with
      | some (.directory files) => files.lookup name
      | _ => none

/-- The entries without what lies at the place. -/
def Place.takeOut (entries : Entries) : Place → Entries
  | given => Function.update entries target.name none
  | made directory => Function.update entries directory none
  | inside directory name =>
      match entries directory with
      | some (.directory files) =>
          Function.update entries directory (some (.directory (files.filter fun file => file.1 ≠ name)))
      | _ => entries

end Places

/-! ## Wrappers -/

/-- `gpg_output_suffix`. -/
def gpgOutputSuffix (path : String) : String :=
  let wrapper := archiveWrapperSuffix path
  let filename := fileName path
  if wrapper.isEmpty then ".decrypted"
  else if filename.length ≤ wrapper.length then ".decrypted"
  else String.ofList (filename.toList.take (filename.length - wrapper.length))

/-- The name of the file without its wrapper. -/
def decryptedName (path : String) : String := "decrypt" ++ gpgOutputSuffix path

/-- Every wrapper has a dot, and no name gets a new one. -/
def wrapperMeasure (path : String) : Nat :=
  if isArchiveWrapperPath path then (fileName path).toList.count '.' + 1 else 0

section Measure

variable {path : String}

theorem suffixAmong_mem {suffixes : List String} (found : suffixAmong suffixes path ≠ "") :
    suffixAmong suffixes path ∈ suffixes ∧
      (suffixAmong suffixes path).toList <:+ (toLowerCopy (fileName path)).toList := by
  rw [suffixAmong] at found ⊢
  cases first : suffixes.find? fun suffix => suffix.toList.isSuffixOf (toLowerCopy (fileName path)).toList with
  | none =>
      rw [first] at found
      exact absurd rfl found
  | some suffix =>
      have ends := List.find?_some first
      exact ⟨List.mem_of_find?_eq_some first, List.isSuffixOf_iff_suffix.mp ends⟩

theorem toLower_eq_dot {letter : Char} : letter.toLower = '.' ↔ letter = '.' := by
  constructor
  · delta Char.toLower
    by_cases upper : letter.val ≥ 'A'.val ∧ letter.val ≤ 'Z'.val
    · rw [dif_pos upper]
      intro lowered
      have values := congrArg (fun ch : Char => ch.val.toNat) lowered
      simp only [ge_iff_le, UInt32.le_iff_toNat_le, UInt32.toNat_add] at upper values
      have bounds : 65 ≤ letter.val.toNat ∧ letter.val.toNat ≤ 90 := upper
      have sum : (letter.val.toNat + 32) % 2 ^ 32 = 46 := values
      omega
    · rw [dif_neg upper]
      exact id
  · rintro rfl
    rfl

theorem count_dot_toLower (letters : List Char) : (letters.map Char.toLower).count '.' = letters.count '.' := by
  induction letters with
  | nil => rfl
  | cons letter letters ih =>
      have same : (letter.toLower == '.') = (letter == '.') := by
        rw [Bool.eq_iff_iff, beq_iff_eq, beq_iff_eq]
        exact toLower_eq_dot
      rw [List.map_cons, List.count_cons, List.count_cons, ih, same]

theorem wrapperSuffix_spec (wrapped : isArchiveWrapperPath path = true) :
    (archiveWrapperSuffix path).isEmpty = false ∧ (archiveWrapperSuffix path).toList.count '.' = 1 ∧
      (archiveWrapperSuffix path).toList <:+ (fileName path).toList.map Char.toLower := by
  have filled : (archiveWrapperSuffix path).isEmpty = false := (Bool.not_eq_true' _).mp wrapped
  have suffix : archiveWrapperSuffix path ≠ "" := by
    intro none
    rw [none] at filled
    cases filled
  obtain ⟨member, ends⟩ := suffixAmong_mem suffix
  refine ⟨filled, ?_, ?_⟩
  · have known : archiveWrapperSuffix path = ".gpg" ∨ archiveWrapperSuffix path = ".pgp" := by
      rcases List.mem_cons.mp member with first | second
      · exact Or.inl first
      · exact Or.inr (List.mem_singleton.mp second)
    rcases known with same | same <;> rw [same] <;> decide
  · rwa [toLowerCopy, String.toList_ofList] at ends

theorem decryptedName_short (wrapped : isArchiveWrapperPath path = true)
    (short : (fileName path).length ≤ (archiveWrapperSuffix path).length) :
    decryptedName path = "decrypt.decrypted" := by
  obtain ⟨filled, -⟩ := wrapperSuffix_spec wrapped
  rw [decryptedName, gpgOutputSuffix]
  simp [filled, short]

/-- What stands in front of the wrapper is kept. -/
theorem decryptedName_front (wrapped : isArchiveWrapperPath path = true)
    (long : ¬(fileName path).length ≤ (archiveWrapperSuffix path).length) :
    ∃ front, (decryptedName path).toList = "decrypt".toList ++ front ∧ front <+: (fileName path).toList ∧
      (fileName path).toList.count '.' = front.count '.' + 1 := by
  obtain ⟨filled, dot, lowered, whole⟩ := wrapperSuffix_spec wrapped
  have lengths := congrArg List.length whole
  rw [List.length_append, List.length_map, String.length_toList, String.length_toList] at lengths
  have size : (fileName path).length - (archiveWrapperSuffix path).length = lowered.length := by omega
  refine ⟨(fileName path).toList.take lowered.length, ?_, List.take_prefix _ _, ?_⟩
  · rw [decryptedName, gpgOutputSuffix]
    simp [filled, long, size]
  · have kept : ((fileName path).toList.take lowered.length).count '.' = lowered.count '.' := by
      rw [← count_dot_toLower, List.map_take, ← whole, List.take_left]
    rw [kept, ← count_dot_toLower, ← whole, List.count_append, dot]

theorem decryptedName_slashless (path : String) : '/' ∉ (decryptedName path).toList := by
  by_cases wrapped : isArchiveWrapperPath path = true
  · by_cases short : (fileName path).length ≤ (archiveWrapperSuffix path).length
    · rw [decryptedName_short wrapped short]
      decide
    · obtain ⟨front, name, start, -⟩ := decryptedName_front wrapped short
      rw [name, List.mem_append, not_or]
      exact ⟨by decide, fun member => fileName_slashless path (start.subset member)⟩
  · have none : (archiveWrapperSuffix path).isEmpty = true := by simpa [isArchiveWrapperPath] using wrapped
    rw [decryptedName, gpgOutputSuffix]
    simp only [none, if_true]
    decide

/-- Taking a wrapper off comes to an end. -/
theorem wrapperMeasure_decryptedName (wrapped : isArchiveWrapperPath path = true) :
    wrapperMeasure (decryptedName path) < wrapperMeasure path := by
  rw [wrapperMeasure, wrapperMeasure, if_pos wrapped]
  by_cases short : (fileName path).length ≤ (archiveWrapperSuffix path).length
  · have unwrapped : isArchiveWrapperPath "decrypt.decrypted" = false := by decide +kernel
    rw [decryptedName_short wrapped short, unwrapped]
    exact Nat.succ_pos _
  · obtain ⟨front, name, start, dots⟩ := decryptedName_front wrapped short
    rw [fileName_plain (decryptedName_slashless path), name, List.count_append, dots]
    have plain : "decrypt".toList.count '.' = 0 := by decide
    split
    · omega
    · omega

theorem wrapperMeasure_child (directory : String) {name : String} (slashless : '/' ∉ name.toList) :
    wrapperMeasure (directory ++ "/" ++ name) = wrapperMeasure name := by
  rw [wrapperMeasure, wrapperMeasure, isArchiveWrapperPath, isArchiveWrapperPath, archiveWrapperSuffix,
    archiveWrapperSuffix, suffixAmong_child _ _ slashless, fileName_child _ slashless, fileName_plain slashless]

end Measure

/-! ## The loop -/

structure ProcessedArchivePath where
  place : Place
  changed : Bool := false
deriving DecidableEq, Repr

/-- What the layers leave behind, an exception included. -/
structure Layered where
  entries : Entries
  cleanupPaths : List String
  result : Except String ProcessedArchivePath

section Processing

variable (outcomes : Outcomes) (options : ArchiveExtractionOptions) (target : ArchivePath)

/-- `make_unique_directory`: a directory that was not there. -/
def makeUniqueDirectory (stem : String) (layer : Nat) (entries : Entries) : Option String :=
  (outcomes.uniqueName stem layer).filter fun name => (entries name).isNone

def uniqueDirectoryMessage : String := "failed to create unique directory under: " ++ target.workingRoot

/-- The loop of `decrypt_wrapper_to_temp_file`. -/
def decryptWrapperToTempFile (input output : Place) : Option ToolRun × Except String ToolRun :=
  runWithPassword outcomes options (gpgCommand (output.path target) (input.path target)) gpgPasswordError
    fun password result =>
      if gpgPasswordError result then passwordMessage target.path password
      else "failed to decrypt archive wrapper: " ++ target.path

/-- Where an archive is extracted to; a single file has the name of the archive. -/
def extractedPlace (archive directory : String) : Place :=
  if isSingleFileArchiveSuffix (genericArchiveSuffix archive) then
    .inside directory (singleFileArchiveOutputName archive (genericArchiveSuffix archive))
  else .made directory

/-- `process_archive_layers` from a place on. -/
def processArchiveLayers (place : Place) (layer : Nat) (changed : Bool) (entries : Entries) : Layered :=
  if _ : isArchiveWrapperPath (place.path target) then
    match makeUniqueDirectory outcomes "decrypt" layer entries with
    | none => ⟨entries, [], .error (uniqueDirectoryMessage target)⟩
    | some directory =>
        let output := Place.inside directory (decryptedName (place.path target))
        let runs := decryptWrapperToTempFile outcomes options target place output
        let entries := Function.update entries directory (some (.directory ((runs.1.map ToolRun.left).getD [])))
        match runs.2 with
        | .error message => ⟨entries, [directory], .error message⟩
        | .ok _ =>
            let rest := processArchiveLayers output (layer + 1) true entries
            { rest with cleanupPaths := directory :: rest.cleanupPaths }
  else if (genericArchiveSuffix (place.path target)).isEmpty then ⟨entries, [], .ok ⟨place, changed⟩⟩
  else
    match makeUniqueDirectory outcomes "extract" layer entries with
    | none => ⟨entries, [], .error (uniqueDirectoryMessage target)⟩
    | some directory =>
        match extractArchiveLayerToDirectory outcomes options target.path (place.path target)
            ((Place.made directory).path target) with
        | .error message =>
            ⟨Function.update entries directory (outcomes.leftover directory), [directory], .error message⟩
        | .ok files =>
            ⟨Function.update entries directory (some (.directory files)), [directory],
              .ok ⟨extractedPlace (place.path target) directory, true⟩⟩
termination_by wrapperMeasure (place.path target)
decreasing_by
  rw [Place.path, wrapperMeasure_child _ (decryptedName_slashless _)]
  exact wrapperMeasure_decryptedName (by assumption)

end Processing

/-! ## The directories -/

/-- Layers work in directories of their own, which stay when all of them were opened. -/
structure Layered.OwnDirectories (layered : Layered) (before : Entries) : Prop where
  fresh : ∀ directory ∈ layered.cleanupPaths, before directory = none
  nodup : layered.cleanupPaths.Nodup
  frame : ∀ name, name ∉ layered.cleanupPaths → layered.entries name = before name
  stays : ∀ processed, layered.result = .ok processed →
    ∀ directory ∈ layered.cleanupPaths, ∃ files, layered.entries directory = some (.directory files)

/-- The directory of a layer a place lies in or is. -/
def Place.directory : Place → Option String
  | given => none
  | made directory => some directory
  | inside directory _ => some directory

def Place.Among (directories : List String) (place : Place) : Prop :=
  ∃ directory ∈ directories, place.directory = some directory

section Directories

variable {outcomes : Outcomes} {options : ArchiveExtractionOptions} {target : ArchivePath} {place : Place} {layer : Nat}
variable {changed : Bool} {before : Entries} {directory stem : String}

theorem makeUniqueDirectory_fresh (made : makeUniqueDirectory outcomes stem layer before = some directory) :
    before directory = none := by
  have fresh := (Option.filter_eq_some_iff.mp made).2
  simpa using fresh

/-- A layer without a directory of its own leaves everything as it was. -/
theorem ownDirectories_nil (result : Except String ProcessedArchivePath) :
    Layered.OwnDirectories ⟨before, [], result⟩ before where
  fresh := by simp
  nodup := List.nodup_nil
  frame _ _ := rfl
  stays := by simp

theorem ownDirectories_failed (tree : Option Tree) (message : String) (fresh : before directory = none) :
    Layered.OwnDirectories ⟨Function.update before directory tree, [directory], .error message⟩ before where
  fresh other member := by
    rw [List.mem_singleton.mp member]
    exact fresh
  nodup := List.nodup_singleton directory
  frame other outside := Function.update_of_ne (fun same => outside (List.mem_singleton.mpr same)) _ _
  stays := by simp

theorem ownDirectories_extracted (files : List (String × Tree)) (processed : ProcessedArchivePath)
    (fresh : before directory = none) :
    Layered.OwnDirectories
      ⟨Function.update before directory (some (.directory files)), [directory], .ok processed⟩ before where
  fresh other member := by
    rw [List.mem_singleton.mp member]
    exact fresh
  nodup := List.nodup_singleton directory
  frame other outside := Function.update_of_ne (fun same => outside (List.mem_singleton.mpr same)) _ _
  stays _ _ other member := by
    rw [List.mem_singleton.mp member]
    exact ⟨files, Function.update_self _ _ _⟩

theorem ownDirectories_cons {tree : Tree} {rest : Layered} (fresh : before directory = none)
    (stays : ∃ files, tree = .directory files)
    (own : rest.OwnDirectories (Function.update before directory (some tree))) :
    Layered.OwnDirectories { rest with cleanupPaths := directory :: rest.cleanupPaths } before := by
  have apart : directory ∉ rest.cleanupPaths := by
    intro member
    have none := own.fresh directory member
    simp at none
  refine ⟨?_, List.nodup_cons.mpr ⟨apart, own.nodup⟩, ?_, ?_⟩
  · intro other member
    rcases List.mem_cons.mp member with rfl | later
    · exact fresh
    · have none := own.fresh other later
      have other : other ≠ directory := by
        rintro rfl
        exact apart later
      rwa [Function.update_of_ne other] at none
  · intro other outside
    rw [List.mem_cons, not_or] at outside
    exact (own.frame other outside.2).trans (Function.update_of_ne outside.1 _ _)
  · intro processed opened other member
    rcases List.mem_cons.mp member with rfl | later
    · obtain ⟨files, rfl⟩ := stays
      exact ⟨files, (own.frame other apart).trans (Function.update_self _ _ _)⟩
    · exact own.stays processed opened other later

theorem processArchiveLayers_own :
    (processArchiveLayers outcomes options target place layer changed before).OwnDirectories before := by
  fun_induction processArchiveLayers outcomes options target place layer changed before with
  | case1 => exact ownDirectories_nil _
  | case2 place layer changed before wrapped directory made output runs entries message failed =>
      exact ownDirectories_failed _ message (makeUniqueDirectory_fresh made)
  | case3 place layer changed before wrapped directory made output runs entries run opened rest ih =>
      exact ownDirectories_cons (makeUniqueDirectory_fresh made) ⟨_, rfl⟩ ih
  | case4 => exact ownDirectories_nil _
  | case5 => exact ownDirectories_nil _
  | case6 place layer changed before unwrapped archive directory made message failed =>
      exact ownDirectories_failed _ message (makeUniqueDirectory_fresh made)
  | case7 place layer changed before unwrapped archive directory made files extracted =>
      exact ownDirectories_extracted files _ (makeUniqueDirectory_fresh made)

theorem extractedPlace_directory (archive directory : String) :
    (extractedPlace archive directory).directory = some directory := by
  unfold extractedPlace
  generalize isSingleFileArchiveSuffix (genericArchiveSuffix archive) = single
  cases single with
  | true => rfl
  | false => rfl

theorem Place.Among.cons {directories : List String} (among : place.Among directories) :
    place.Among (directory :: directories) := by
  obtain ⟨other, member, lies⟩ := among
  exact ⟨other, List.mem_cons_of_mem _ member, lies⟩

/-- The content stays where it was, or it comes to lie in one of the directories. -/
theorem processArchiveLayers_place {processed : ProcessedArchivePath}
    (opened : (processArchiveLayers outcomes options target place layer changed before).result = .ok processed) :
    processed = ⟨place, changed⟩ ∨ (processed.changed = true ∧
      processed.place.Among (processArchiveLayers outcomes options target place layer changed before).cleanupPaths) := by
  fun_induction processArchiveLayers outcomes options target place layer changed before with
  | case1 => cases opened
  | case2 => cases opened
  | case3 place layer changed before wrapped directory made output runs entries run decrypted rest ih =>
      rcases ih opened with rfl | ⟨done, among⟩
      · exact Or.inr ⟨rfl, directory, List.mem_cons_self, rfl⟩
      · exact Or.inr ⟨done, among.cons⟩
  | case4 place layer changed before unwrapped plain =>
      cases opened
      exact Or.inl rfl
  | case5 => cases opened
  | case6 => cases opened
  | case7 place layer changed before unwrapped archive directory made files extracted =>
      have lies := extractedPlace_directory (place.path target) directory
      rw [← Except.ok.inj opened]
      refine Or.inr ⟨rfl, directory, List.mem_cons_self, ?_⟩
      rw [lies]

/-- An archive or a wrapper is a layer at least. -/
theorem processArchiveLayers_changed {processed : ProcessedArchivePath}
    (archive : isGenericArchivePath (place.path target) = true ∨ isArchiveWrapperPath (place.path target) = true)
    (opened : (processArchiveLayers outcomes options target place layer changed before).result = .ok processed) :
    processed.changed = true ∧
      processed.place.Among (processArchiveLayers outcomes options target place layer changed before).cleanupPaths := by
  revert opened
  fun_cases processArchiveLayers outcomes options target place layer changed before with
  | case1 =>
      intro opened
      cases opened
  | case2 =>
      intro opened
      cases opened
  | case3 wrapped directory made output runs entries run decrypted rest =>
      intro opened
      rcases processArchiveLayers_place opened with rfl | ⟨done, among⟩
      · exact ⟨rfl, directory, List.mem_cons_self, rfl⟩
      · exact ⟨done, among.cons⟩
  | case4 unwrapped plain =>
      rcases archive with generic | wrapped
      · rw [isGenericArchivePath, plain] at generic
        cases generic
      · exact absurd wrapped unwrapped
  | case5 =>
      intro opened
      cases opened
  | case6 =>
      intro opened
      cases opened
  | case7 unwrapped generic directory made files extracted =>
      intro opened
      have lies := extractedPlace_directory (place.path target) directory
      rw [← Except.ok.inj opened]
      refine ⟨rfl, directory, List.mem_cons_self, ?_⟩
      rw [lies]

/-- After an exception nothing new is left exactly when no wrapper was opened and the
directory of the extraction could be removed. -/
theorem processArchiveLayers_failed {message : String}
    (failed : (processArchiveLayers outcomes options target place layer changed before).result = .error message) :
    (∀ name, before name = none →
        (processArchiveLayers outcomes options target place layer changed before).entries name = none) ↔
      (isArchiveWrapperPath (place.path target) = true → makeUniqueDirectory outcomes "decrypt" layer before = none) ∧
        (isArchiveWrapperPath (place.path target) = false → ∀ directory,
          makeUniqueDirectory outcomes "extract" layer before = some directory →
            outcomes.leftover directory = none) := by
  revert failed
  fun_cases processArchiveLayers outcomes options target place layer changed before with
  | case1 wrapped unmade =>
      intro failed
      refine ⟨fun _ => ⟨fun _ => unmade, fun unwrapped => ?_⟩, fun _ name absent => absent⟩
      rw [wrapped] at unwrapped
      cases unwrapped
  | case2 wrapped directory made output runs entries message unopened =>
      intro failed
      refine ⟨fun gone => ?_, fun right => ?_⟩
      · have absent := gone directory (makeUniqueDirectory_fresh made)
        simp [entries] at absent
      · rw [made] at right
        cases right.1 wrapped
  | case3 wrapped directory made output runs entries run opened rest =>
      intro failed
      have own := @processArchiveLayers_own outcomes options target output (layer + 1) true entries
      have apart : directory ∉ rest.cleanupPaths := by
        intro member
        have absent := own.fresh directory member
        simp [entries] at absent
      refine ⟨fun gone => ?_, fun right => ?_⟩
      · have absent := gone directory (makeUniqueDirectory_fresh made)
        have present : rest.entries directory = entries directory := own.frame directory apart
        simp [present, entries] at absent
      · rw [made] at right
        cases right.1 wrapped
  | case4 unwrapped plain =>
      intro failed
      cases failed
  | case5 unwrapped archive unmade =>
      intro failed
      refine ⟨fun _ => ⟨fun wrapped => absurd wrapped unwrapped, fun _ directory made => ?_⟩, fun _ name absent => absent⟩
      rw [unmade] at made
      cases made
  | case6 unwrapped archive directory made message unextracted =>
      intro failed
      refine ⟨fun gone => ⟨fun wrapped => absurd wrapped unwrapped, fun _ other same => ?_⟩, fun right name absent => ?_⟩
      · rw [made] at same
        cases same
        have absent := gone directory (makeUniqueDirectory_fresh made)
        simpa using absent
      · by_cases here : name = directory
        · subst here
          simpa using right.2 (eq_false_of_ne_true unwrapped) name made
        · simpa [Function.update_of_ne here] using absent
  | case7 unwrapped archive directory made files extracted =>
      intro failed
      cases failed

end Directories

end ReqPack.Archive
