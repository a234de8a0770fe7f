import ReqPack.Data.FileSystem
import ReqPack.Rqp.TarRoundTrip

/-! # Extraction of a payload

Entries are checked one by one and then written below the target directory.  The check
looks at the components of an entry's own path; where the path leads is up to the links
that earlier entries left there.
-/

namespace ReqPack.Rqp

open ReqPack.Data
open ReqPack.Data.Ascii
open ReqPack.Data.FileSystem

/-- The exceptions of an extraction; the texts of the standard library are left out. -/
inductive PayloadError
  | message (text : Bytes)
  | filesystem
deriving DecidableEq, Repr

def validatePayloadSymlinkTarget (path linkTarget : Bytes) : Except PayloadError Unit :=
  if linkTarget.isEmpty then .error (.message (bytes "invalid payload symlink target: " ++ path))
  else if linkTarget.head? == some slash then
    .error (.message (bytes "invalid payload symlink target: " ++ path))
  else .ok ()

def validatePayloadEntry (entry : TarEntry) : Except PayloadError Unit :=
  if entry.type ≠ fileType ∧ entry.type ≠ 0 ∧ entry.type ≠ directoryType ∧ entry.type ≠ symlinkType then
    .error (.message (bytes "unsupported payload tar entry type"))
  else if pathHasInvalidSegments entry.path then
    .error (.message (bytes "invalid payload path: " ++ entry.path))
  else if entry.type = symlinkType then validatePayloadSymlinkTarget entry.path entry.linkTarget
  else .ok ()

/-! ## Paths as the operating system reads them -/

/-- A path ends for the operating system at its first NUL byte. -/
def cString (path : Bytes) : Bytes := path.takeWhile (· != 0)

def nativePart (component : Bytes) : FileSystem.Part Bytes :=
  if component = bytes "." then .here else if component = bytes ".." then .up else .name component

/-- The components of a path below a directory; a slash at the end asks for a directory. -/
def nativeParts (path : Bytes) : List (FileSystem.Part Bytes) :=
  ((path.splitOn slash).filter fun component => !component.isEmpty).map nativePart ++
    if path.getLast? == some slash then [.here] else []

/-- Where an entry's path leads below the target. -/
def entryParts (entry : TarEntry) : List (FileSystem.Part Bytes) := nativeParts (cString entry.path)

/-- The same for the `parent_path` of the output. -/
def parentParts (entry : TarEntry) : List (FileSystem.Part Bytes) :=
  nativeParts (cString ([slash].intercalate (components entry.path).dropLast))

/-! ## The extraction -/

/-- The directory an archive is extracted to: its text and its location. -/
structure ExtractionTarget where
  root : Bytes
  location : Location Bytes
deriving DecidableEq, Repr

abbrev PayloadDisk := Disk Bytes Bytes

/-- What an extraction leaves behind, and the exception that ended it. -/
abbrev Extraction := PayloadDisk × Option PayloadError

def orThrow (error : PayloadError) (outcome : Outcome Bytes Bytes) : Extraction :=
  (outcome.1, if outcome.2 then none else some error)

/-- The next step, when nothing was thrown. -/
def Extraction.andThen (first : Extraction) (next : PayloadDisk → Extraction) : Extraction :=
  match first.2 with
  | none => next first.1
  | some _ => first

/-- `write_file` of an entry's data. -/
def writePayloadFile (links : Nat) (target : ExtractionTarget) (entry : TarEntry) (disk : PayloadDisk) : Extraction :=
  (orThrow .filesystem (createDirectories links target.location (parentParts entry) disk)).andThen fun disk =>
    orThrow (.message (bytes "failed to write file: " ++ joinPath target.root entry.path))
      (writeFile links target.location (entryParts entry) entry.data disk)

/-- The body of the loop of `extract_tar_to_directory`. -/
def extractEntry (links : Nat) (target : ExtractionTarget) (entry : TarEntry) (disk : PayloadDisk) : Extraction :=
  match validatePayloadEntry entry with
  | .error error => (disk, some error)
  | .ok () =>
      if entry.type = directoryType then
        orThrow .filesystem (createDirectories links target.location (entryParts entry) disk)
      else if entry.type = symlinkType then
        (orThrow .filesystem (createDirectories links target.location (parentParts entry) disk)).andThen fun disk =>
          orThrow (.message (bytes "failed to create payload symlink: " ++ entry.path))
            (createSymlink links target.location (entry.linkTarget.head? == some slash)
              (nativeParts entry.linkTarget) (entryParts entry) disk)
      else if entry.type ≠ fileType ∧ entry.type ≠ 0 then
        (disk, some (.message (bytes "unsupported payload tar entry type")))
      else
        (orThrow .filesystem (createDirectories links target.location (parentParts entry) disk)).andThen
          (writePayloadFile links target entry)

def extractEntries (links : Nat) (target : ExtractionTarget) : List TarEntry → PayloadDisk → Extraction
  | [], disk => (disk, none)
  | entry :: entries, disk => (extractEntry links target entry disk).andThen (extractEntries links target entries)

def extractTarToDirectory (links : Nat) (content : Bytes) (target : ExtractionTarget) (disk : PayloadDisk) :
    Extraction :=
  match parseTarEntries content with
  | .error message => (disk, some (.message message))
  | .ok entries => extractEntries links target entries disk

/-! ## Staying inside -/

/-- No link that is there leads the paths of the entry up from the target. -/
def StaysBelow (links : Nat) (target : ExtractionTarget) (nodes : Nodes Bytes Bytes) (entry : TarEntry) : Prop :=
  confined nodes true target.location links target.location (parentParts entry) = true ∧
    confined nodes (entry.type != symlinkType) target.location links target.location (entryParts entry) = true

section Inside

variable {links : Nat} {target : ExtractionTarget} {entry : TarEntry} {disk : PayloadDisk}

@[simp] theorem orThrow_disk (error : PayloadError) (outcome : Outcome Bytes Bytes) :
    (orThrow error outcome).1 = outcome.1 := rfl

theorem Extraction.andThen_within {top : Location Bytes} {first : Extraction} {next : PayloadDisk → Extraction}
    (start : first.1.Within top) (later : (next first.1).1.Within top) : (first.andThen next).1.Within top := by
  rw [Extraction.andThen]
  split
  · exact later
  · exact start

theorem writePayloadFile_within
    (parent : confined disk.nodes true target.location links target.location (parentParts entry) = true)
    (own : confined disk.nodes true target.location links target.location (entryParts entry) = true)
    (within : disk.Within target.location) :
    (writePayloadFile links target entry disk).1.Within target.location := by
  obtain ⟨inside, same⟩ := createDirectories_within parent (List.suffix_refl _) within
  apply Extraction.andThen_within
  · rw [orThrow_disk]
    exact inside
  · simp only [orThrow_disk]
    exact writeFile_within (confined_sameLinks same own) (List.suffix_refl _) inside

/-- An entry whose paths stay below the target is written there. -/
theorem extractEntry_within (stays : StaysBelow links target disk.nodes entry)
    (within : disk.Within target.location) : (extractEntry links target entry disk).1.Within target.location := by
  obtain ⟨parent, own⟩ := stays
  obtain ⟨inside, same⟩ := createDirectories_within parent (List.suffix_refl _) within
  rw [extractEntry]
  cases validatePayloadEntry entry with
  | error error => exact within
  | ok accepted =>
      simp only
      split
      · rename_i directory
        rw [directory, show (directoryType != symlinkType) = true from rfl] at own
        exact (createDirectories_within own (List.suffix_refl _) within).1
      · split
        · rename_i symlink
          rw [symlink, show (symlinkType != symlinkType) = false from rfl] at own
          apply Extraction.andThen_within
          · rw [orThrow_disk]
            exact inside
          · simp only [orThrow_disk]
            exact createSymlink_within (confined_sameLinks same own) (List.suffix_refl _) inside
        · rename_i ordinary
          rw [bne_iff_ne.mpr ordinary] at own
          split
          · exact within
          · apply Extraction.andThen_within
            · rw [orThrow_disk]
              exact inside
            · rw [orThrow_disk]
              exact writePayloadFile_within (confined_sameLinks same parent) (confined_sameLinks same own) inside

/-- Every entry that is reached stays below the target in the state it meets. -/
def EntriesStay (links : Nat) (target : ExtractionTarget) (entries : List TarEntry) (disk : PayloadDisk) : Prop :=
  ∀ front entry back, entries = front ++ entry :: back → (extractEntries links target front disk).2 = none →
    validatePayloadEntry entry = .ok () →
    StaysBelow links target (extractEntries links target front disk).1.nodes entry

theorem extractEntries_within {entries : List TarEntry} (stay : EntriesStay links target entries disk)
    (within : disk.Within target.location) : (extractEntries links target entries disk).1.Within target.location := by
  induction entries generalizing disk with
  | nil => exact within
  | cons entry entries ih =>
      have first : (extractEntry links target entry disk).1.Within target.location := by
        cases accepted : validatePayloadEntry entry with
        | error error =>
            rw [extractEntry, accepted]
            exact within
        | ok _ => exact extractEntry_within (stay [] entry entries rfl rfl accepted) within
      rw [extractEntries, Extraction.andThen]
      cases done : (extractEntry links target entry disk).2 with
      | some error => exact first
      | none =>
          refine ih ?_ first
          intro front later back whole reached accepted
          have started : extractEntries links target (entry :: front) disk =
              extractEntries links target front (extractEntry links target entry disk).1 := by
            rw [extractEntries, Extraction.andThen, done]
          have kept := stay (entry :: front) later back (by rw [whole]; rfl)
          rw [started] at kept
          exact kept reached accepted

end Inside

/-! ## Files that are led outside -/

section Outside

variable {links : Nat} {target : ExtractionTarget} {entry : TarEntry} {disk : PayloadDisk}

theorem extractEntries_append (front back : List TarEntry) (disk : PayloadDisk) :
    extractEntries links target (front ++ back) disk =
      (extractEntries links target front disk).andThen (extractEntries links target back) := by
  induction front generalizing disk with
  | nil => rfl
  | cons entry front ih =>
      rw [List.cons_append, extractEntries, extractEntries]
      simp only [Extraction.andThen]
      cases failed : (extractEntry links target entry disk).2 with
      | none => exact ih _
      | some error => simp only [failed]

theorem Extraction.andThen_touched {first : Extraction} {next : PayloadDisk → Extraction}
    (start : disk.touched <+: first.1.touched) (grows : ∀ disk, disk.touched <+: (next disk).1.touched) :
    disk.touched <+: (first.andThen next).1.touched := by
  rw [Extraction.andThen]
  split
  · exact start.trans (grows _)
  · exact start

theorem writePayloadFile_touched (disk : PayloadDisk) :
    disk.touched <+: (writePayloadFile links target entry disk).1.touched := by
  apply Extraction.andThen_touched
  · rw [orThrow_disk]
    exact createDirectories_touched
  · intro disk
    rw [orThrow_disk]
    exact writeFile_touched

theorem extractEntry_touched (disk : PayloadDisk) : disk.touched <+: (extractEntry links target entry disk).1.touched := by
  rw [extractEntry]
  split
  · exact List.prefix_refl _
  · split
    · rw [orThrow_disk]
      exact createDirectories_touched
    · split
      · apply Extraction.andThen_touched
        · rw [orThrow_disk]
          exact createDirectories_touched
        · intro disk
          rw [orThrow_disk]
          exact createSymlink_touched
      · split
        · exact List.prefix_refl _
        · apply Extraction.andThen_touched
          · rw [orThrow_disk]
            exact createDirectories_touched
          · exact writePayloadFile_touched

theorem extractEntries_touched (entries : List TarEntry) (disk : PayloadDisk) :
    disk.touched <+: (extractEntries links target entries disk).1.touched := by
  induction entries generalizing disk with
  | nil => exact List.prefix_refl _
  | cons entry entries ih => exact Extraction.andThen_touched (extractEntry_touched disk) ih

/-- A file is written wherever its path leads. -/
theorem extractEntry_opens {location : Location Bytes} (accepted : validatePayloadEntry entry = .ok ())
    (file : entry.type = fileType) (established : Established disk.nodes links target.location (parentParts entry))
    (opens : Opens disk.nodes links target.location (entryParts entry) location) :
    location ∈ (extractEntry links target entry disk).1.touched := by
  have written : extractEntry links target entry disk = (disk.put location (.file entry.data), none) := by
    rw [extractEntry, accepted]
    simp only [file, show fileType ≠ directoryType by decide, show fileType ≠ symlinkType by decide, if_false,
      ne_eq, not_true, false_and, writePayloadFile, createDirectories_established established, orThrow,
      Extraction.andThen, if_true, writeFile_opens opens]
  rw [written]
  exact List.mem_append_right _ (List.mem_singleton.mpr rfl)

end Outside

def emptyTarget : ExtractionTarget := ⟨bytes "/home/payload", [bytes "payload", bytes "home"]⟩

/-- The target is the only directory in `/home`, and there is nothing in it. -/
def emptyDisk : PayloadDisk where
  nodes location :=
    if location = [] ∨ location = [bytes "home"] ∨ location = emptyTarget.location then some .directory else none
  touched := []

def toolArchive : Bytes := ((tarBytesFromEntries [toolEntry]).toOption).getD []

theorem toolArchive_entries : parseTarEntries toolArchive = .ok [readBack toolEntry] := by
  have packable : ∀ entry ∈ [toolEntry], Packable entry := by
    simpa only [List.forall_mem_singleton] using toolEntry_packable
  have writable : ∀ entry ∈ [toolEntry], Writable entry := by
    simp only [List.forall_mem_singleton]
    exact ⟨Or.inl (by decide), by decide, (fun link => absurd link (by decide)), by decide, by decide⟩
  obtain ⟨output, written⟩ := tarBytes_written writable
  rw [toolArchive, written]
  exact parse_tarBytes packable written

def upLink : TarWriteEntry := ⟨bytes "a", symlinkType, [], bytes "..", 0o777⟩

def outsideFile : TarWriteEntry := ⟨bytes "a/x", fileType, bytes "data", [], 0o644⟩

def escapingArchive : Bytes := ((tarBytesFromEntries [upLink, outsideFile]).toOption).getD []

theorem escapingArchive_entries :
    parseTarEntries escapingArchive = .ok [readBack upLink, readBack outsideFile] := by
  have link : Packable upLink :=
    ⟨Or.inr (Or.inl rfl), by decide, by decide, by decide, by decide, (fun file => absurd file (by decide)), fun _ => by decide⟩
  have file : Packable outsideFile :=
    ⟨Or.inl rfl, by decide, by decide, by decide, by decide, (fun _ => by decide), fun symlink => absurd symlink (by decide)⟩
  have packable : ∀ entry ∈ [upLink, outsideFile], Packable entry := by
    simp only [List.forall_mem_cons]
    exact ⟨link, file, by simp⟩
  have writable : ∀ entry ∈ [upLink, outsideFile], Writable entry := by
    simp only [List.forall_mem_cons]
    exact ⟨⟨Or.inl (by decide), by decide, (fun _ => by decide), by decide, by decide⟩,
      ⟨Or.inl (by decide), by decide, (fun _ => by decide), by decide, by decide⟩, by simp⟩
  obtain ⟨output, written⟩ := tarBytes_written writable
  have sorted : stableSort tarEntryBefore [upLink, outsideFile] = [upLink, outsideFile] := by decide
  have read := parse_tarBytes packable written
  rw [sorted] at read
  rw [escapingArchive, written]
  exact read

end ReqPack.Rqp
