import ReqPack.Archive.Suffixes
import ReqPack.Data.Bytes

/-! # The tools that open archives

`archive_resolver_process` and the first half of `archive_resolver_extract`: the commands
for the external tools, what is read from their answers, and the checks before and after
an extraction.  What a tool does is not known; it is one of the outcomes that come from
outside.
-/

namespace ReqPack.Archive

open ReqPack.Data ReqPack.Planner

/-- What lies at a name in a directory. -/
inductive Tree
  | file (content : Bytes)
  | symlink
  | directory (entries : List (String × Tree))

mutual

def Tree.hasSymlink : Tree → Bool
  | .file _ => false
  | .symlink => true
  | .directory entries => entriesHaveSymlink entries

def entriesHaveSymlink : List (String × Tree) → Bool
  | [] => false
  | (_, tree) :: entries => tree.hasSymlink || entriesHaveSymlink entries

end

/-- How a tool ended, what it printed, and what is in its directory then. -/
structure ToolRun where
  exitCode : Int
  output : String := ""
  left : List (String × Tree) := []

structure ArchiveExtractionOptions where
  password : String := ""
  interactive : Bool := false

/-- What the world outside answers. -/
structure Outcomes where
  /-- the unique directory for a stem and a layer, if one can be made -/
  uniqueName : String → Nat → Option String
  /-- the runs of a command, the second of them after a prompt; `none` when there is no run -/
  run : String → Nat → Option ToolRun
  /-- the answer to the prompt after the first run of a command -/
  prompt : String → Option String
  /-- the extracted tree can be walked -/
  inspects : Bool
  /-- what `remove_all` leaves of a directory -/
  leftover : String → Option Tree
  /-- `remove` of the archive -/
  removes : Bool
  /-- `rename` onto the path of the archive -/
  renames : Bool

/-! ## Commands -/

def escapeShellArg (value : String) : String :=
  String.ofList ('\'' :: value.toList.flatMap (fun ch => if ch = '\'' then "'\\''".toList else [ch]) ++ ['\''])

def gpgCommand (output input password : String) : String :=
  "gpg --batch --yes --pinentry-mode loopback --passphrase " ++ escapeShellArg password ++ " -o " ++
    escapeShellArg output ++ " -d " ++ escapeShellArg input

def zipExtractCommand (archive outputDirectory password : String) : String :=
  "unzip -o " ++ (if password.isEmpty then "" else "-P " ++ escapeShellArg password ++ " ") ++
    escapeShellArg archive ++ " -d " ++ escapeShellArg outputDirectory

def sevenZipPasswordFlag (password : String) : String := "-p" ++ escapeShellArg password

def sevenZipListCommand (archive password : String) : String :=
  "7z l -slt " ++ sevenZipPasswordFlag password ++ " " ++ escapeShellArg archive

def sevenZipExtractCommand (archive outputDirectory password : String) : String :=
  "7z x -y " ++ sevenZipPasswordFlag password ++ " -o" ++ escapeShellArg outputDirectory ++ " " ++
    escapeShellArg archive

/-! ## Answers -/

def outputContains (result : ToolRun) (token : String) : Bool :=
  (toLowerCopy result.output).toList.tails.any (toLowerCopy token).toList.isPrefixOf

def zipRequiresPassword (result : ToolRun) : Bool :=
  result.exitCode == 5 || outputContains result "unable to get password"

def zipHasInvalidPassword (result : ToolRun) : Bool :=
  result.exitCode == 82 || outputContains result "incorrect password" ||
    outputContains result "may instead be incorrect password"

def sevenZipPasswordError (result : ToolRun) : Bool :=
  outputContains result "cannot open encrypted archive. wrong password?" || outputContains result "headers error"

def gpgPasswordError (result : ToolRun) : Bool := outputContains result "decryption failed: bad session key"

def archivePasswordRequiredMessage (path : String) : String := "archive password required: " ++ path

def invalidArchivePasswordMessage (path : String) : String := "invalid archive password: " ++ path

/-- What is said about a wrong password depends on whether there was one. -/
def passwordMessage (promptPath password : String) : String :=
  if password.isEmpty then archivePasswordRequiredMessage promptPath else invalidArchivePasswordMessage promptPath

def trimLine (value : String) : String :=
  String.ofList (value.toList.rdropWhile fun ch => ch == '\n' || ch == '\r')

/-- The lines of a text; a line break at its end does not begin another one. -/
def getLines (content : String) : List String :=
  let lines := content.toList.splitOn '\n'
  (if lines.getLast? == some [] then lines.dropLast else lines).map String.ofList

def splitLines (content : String) : List String :=
  ((getLines content).map trimLine).filter fun line => !line.isEmpty

/-- The first of the paths is the one of the archive itself. -/
def parseSevenZipEntries (content : String) : List String :=
  (((getLines content).map trimLine).filterMap fun line =>
    if "Path = ".toList.isPrefixOf line.toList then
      let path := String.ofList (line.toList.drop 7)
      if path.isEmpty then none else some path
    else none).drop 1

section Runs

variable (outcomes : Outcomes) (options : ArchiveExtractionOptions) (promptPath : String)

/-- The loops around `gpg`, `unzip` and `7z`: a user may be asked for another password once.
The last run that took place comes first in the answer. -/
def runWithPassword (command : String → String) (asks : ToolRun → Bool) (refusal : String → ToolRun → String) :
    Option ToolRun × Except String ToolRun :=
  match outcomes.run (command options.password) 0 with
  | none => (none, .error "failed to run archive command")
  | some first =>
      if first.exitCode = 0 then (some first, .ok first)
      else
        match if asks first && options.interactive then outcomes.prompt (command options.password) else none with
        | none => (some first, .error (refusal options.password first))
        | some password =>
            match outcomes.run (command password) 1 with
            | none => (some first, .error "failed to run archive command")
            | some second =>
                if second.exitCode = 0 then (some second, .ok second)
                else (some second, .error (refusal password second))

def sevenZipEntries (archive : String) : Except String (List String) :=
  let runs := runWithPassword outcomes options (sevenZipListCommand archive) sevenZipPasswordError
    fun password result =>
      if sevenZipPasswordError result then passwordMessage promptPath password
      else "failed to inspect archive: " ++ promptPath
  runs.2.map fun run => parseSevenZipEntries run.output

/-- The second tool is tried when the first one fails. -/
def zipArchiveEntries (archive : String) : Except String (List String) :=
  match outcomes.run ("zipinfo -1 " ++ escapeShellArg archive) 0 with
  | none => .error "failed to run archive command"
  | some first =>
      if first.exitCode = 0 then .ok (splitLines first.output)
      else
        match outcomes.run ("unzip -Z1 " ++ escapeShellArg archive) 0 with
        | none => .error "failed to run archive command"
        | some second =>
            if second.exitCode = 0 then .ok (splitLines second.output) else .error "failed to inspect archive"

def isSingleFileArchiveSuffix (suffix : String) : Bool :=
  suffix == ".gz" || suffix == ".bz2" || suffix == ".xz" || suffix == ".zst"

def singleFileArchiveOutputName (archive suffix : String) : String :=
  let filename := fileName archive
  if !isSingleFileArchiveSuffix suffix || filename.length ≤ suffix.length then "payload"
  else String.ofList (filename.toList.take (filename.length - suffix.length))

def tarArchiveEntries (archive : String) : Except String (List String) :=
  match outcomes.run ("tar -tf " ++ escapeShellArg archive) 0 with
  | none => .error "failed to inspect archive"
  | some run => if run.exitCode = 0 then .ok (splitLines run.output) else .error "failed to inspect archive"

def archiveEntries (archive suffix : String) : Except String (List String) :=
  if suffix == ".zip" then zipArchiveEntries outcomes archive
  else if suffix == ".7z" then sevenZipEntries outcomes options promptPath archive
  else if isSingleFileArchiveSuffix suffix then .ok [singleFileArchiveOutputName archive suffix]
  else tarArchiveEntries outcomes archive

/-! ## Checks -/

def dropDotSlash : List Char → List Char
  | '.' :: '/' :: rest => dropDotSlash rest
  | letters => letters

def normalizeArchiveEntry (path : String) : String :=
  String.ofList ((dropDotSlash path.toList).rdropWhile (· == '/'))

/-- An absolute path, or one with a part that names no file. -/
def pathHasInvalidSegments (path : String) : Bool :=
  path.isEmpty || path.toList.head? == some '/' ||
    ((path.toList.splitOn '/').filter fun part => !part.isEmpty).any fun part => part == ['.'] || part == ['.', '.']

def validateArchiveEntries (entries : List String) : Except String Unit :=
  if entries.isEmpty then .error "archive is empty"
  else
    match (entries.map normalizeArchiveEntry).find? fun entry => !entry.isEmpty && pathHasInvalidSegments entry with
    | some entry => .error ("archive contains unsafe path: " ++ entry)
    | none => .ok ()

def verifyExtractedTree (entries : List (String × Tree)) : Except String Unit :=
  if !outcomes.inspects then .error "failed to inspect extracted archive"
  else if entriesHaveSymlink entries then .error "archive contains unsupported symlink entry"
  else if entries.isEmpty then .error "archive extraction produced no files"
  else .ok ()

/-! ## An archive -/

/-- The command for what is neither a zip nor a 7z archive. -/
def unpackCommand (archive outputDirectory suffix : String) : String :=
  let singleFileOutput := escapeShellArg (outputDirectory ++ "/" ++ singleFileArchiveOutputName archive suffix)
  if suffix == ".gz" then "gzip -cd " ++ escapeShellArg archive ++ " > " ++ singleFileOutput
  else if suffix == ".bz2" then "bzip2 -cd " ++ escapeShellArg archive ++ " > " ++ singleFileOutput
  else if suffix == ".xz" then "xz -cd " ++ escapeShellArg archive ++ " > " ++ singleFileOutput
  else if suffix == ".zst" then "zstd -q -d -c " ++ escapeShellArg archive ++ " > " ++ singleFileOutput
  else "tar -xf " ++ escapeShellArg archive ++ " -C " ++ escapeShellArg outputDirectory

def unpack (archive outputDirectory suffix : String) : Option ToolRun × Except String ToolRun :=
  let command := unpackCommand archive outputDirectory suffix
  match outcomes.run command 0 with
  | none => (none, .error "failed to run archive command")
  | some run =>
      (some run, if run.exitCode = 0 then .ok run else .error ("failed to extract archive: " ++ promptPath))

def extractZip (archive outputDirectory : String) : Option ToolRun × Except String ToolRun :=
  runWithPassword outcomes options (zipExtractCommand archive outputDirectory)
    (fun result => zipRequiresPassword result || zipHasInvalidPassword result)
    fun _ result =>
      if zipRequiresPassword result then archivePasswordRequiredMessage promptPath
      else if zipHasInvalidPassword result then invalidArchivePasswordMessage promptPath
      else "failed to extract archive: " ++ promptPath

def extractSevenZip (archive outputDirectory : String) : Option ToolRun × Except String ToolRun :=
  runWithPassword outcomes options (sevenZipExtractCommand archive outputDirectory) sevenZipPasswordError
    fun password result =>
      if sevenZipPasswordError result then passwordMessage promptPath password
      else "failed to extract archive: " ++ promptPath

/-- `extract_archive_layer_to_directory`: what is in the directory afterwards. -/
def extractArchiveLayerToDirectory (archive outputDirectory : String) :
    Except String (List (String × Tree)) :=
  let suffix := genericArchiveSuffix archive
  match archiveEntries outcomes options promptPath archive suffix with
  | .error message => .error message
  | .ok entries =>
      match validateArchiveEntries entries with
      | .error message => .error message
      | .ok () =>
          let runs :=
            if suffix == ".zip" then extractZip outcomes options promptPath archive outputDirectory
            else if suffix == ".7z" then extractSevenZip outcomes options promptPath archive outputDirectory
            else unpack outcomes promptPath archive outputDirectory suffix
          match runs.2 with
          | .error message => .error message
          | .ok run =>
              match verifyExtractedTree outcomes run.left with
              | .error message => .error message
              | .ok () => .ok run.left

end Runs

end ReqPack.Archive
