import ReqPack.Archive.Suffixes
import ReqPack.Core.Platform
import ReqPack.Data.Bytes
import ReqPack.Data.LastWrite
import ReqPack.Data.Paths
import ReqPack.Planner.ProxySoundness

/-! # Installs from URLs

`prepare_requests_for_run` fetches what a request names by a URL into one directory for
all requests of the run, under the name the URL ends in.
-/

namespace ReqPack.Workflow

open ReqPack.Archive ReqPack.Core ReqPack.Data ReqPack.Planner

def isUrl (value : String) : Bool :=
  startsWith value "http://" || startsWith value "https://" || startsWith value "file://"

def urlFilename (url : String) : String :=
  match splitLast '/' url with
  | none => "download"
  | some (_, raw) => if raw.isEmpty then "download" else String.ofList (raw.toList.takeWhile (· != '?'))

/-- `file_extension`: an archive suffix, or what the last dot begins. -/
def fileExtension (path : String) : String :=
  let filename := urlFilename path
  if !(genericArchiveSuffix filename).isEmpty then genericArchiveSuffix filename
  else
    match splitLast '.' filename with
    | none => ""
    | some (front, back) => if front.isEmpty then "" else toLowerCopy ("." ++ back)

/-- What lies under a name in the directory for temporary files. -/
inductive Entry
  | file (content : Bytes)
  | directory
deriving DecidableEq, Repr

abbrev Files := String → Option Entry

/-- Besides what was created there, a directory has itself and the one above it. -/
def entryAt (files : Files) (name : String) : Option Entry :=
  if name = "" ∨ name = "." ∨ name = ".." then some .directory else files name

structure ArchiveResolution where
  installPath : String
  changed : Bool := false
  cleanupPaths : List String := []
deriving DecidableEq, Repr

/-- What the requests of a run are prepared with. -/
structure Preparer where
  /-- `temp_directory_path() / "reqpack"` -/
  tempDir : String
  /-- what a transfer brings, by its number in the run; `none` is a failure of any kind -/
  transfer : Nat → String → Option Bytes
  /-- what lies at a path on this machine -/
  localFile : String → Option Bytes
  processArchiveLayers : Files → String → Files × Except String ArchiveResolution
  resolveSystemForLocalTarget : Files → String → String
  proxies : Proxies

structure Preparation where
  files : Files
  transfers : Nat := 0
  tempFiles : List String := []

structure Diagnostic where
  category : String
  summary : String
  cause : String
  recommendation : String
  details : String
  source : String
  scope : String
  context : List (String × String) := []
deriving DecidableEq, Repr

def unresolvedLocalTarget (request : Request) (details : String) : Diagnostic where
  category := "orchestrator"
  summary := "Local target could not be resolved"
  cause := "ReqPack could not infer plugin or install target details from provided local path."
  recommendation := "Specify system explicitly, for example \x60rqp install <system> <path>\x60."
  details := details
  source := if request.system.isEmpty then "install" else request.system
  scope := "local-target"
  context := [("path", request.localPath)]

def downloadFailed (request : Request) (target : String) : Diagnostic where
  category := "network"
  summary := "Download failed for " ++ request.localPath
  cause := "Remote host could not be reached or returned data ReqPack could not download successfully."
  recommendation := "Check network access, verify URL, and confirm proxy or firewall settings."
  details := ""
  source := if request.system.isEmpty then "download" else request.system
  scope := "install"
  context := [("url", request.localPath), ("target", target)]

def unresolvedDownload (request : Request) (details : String) : Diagnostic where
  category := "orchestrator"
  summary := "Downloaded target could not be resolved"
  cause := "ReqPack downloaded file successfully, but could not map it to a plugin or install target."
  recommendation := "Specify system explicitly when installing remote files."
  details := details
  source := if request.system.isEmpty then "install" else request.system
  scope := "local-target"
  context := [("path", request.localPath)]

def resolutionFailed (details : String) : Diagnostic where
  category := "orchestrator"
  summary := "Request resolution failed"
  cause := "ReqPack could not normalize one or more user requests into executable operations."
  recommendation := "Check package specifiers, system names, and command flags, then retry."
  details := details
  source := "resolver"
  scope := "request"

section Prepare

variable (preparer : Preparer)

/-- The path of a name in the directory for temporary files. -/
def tempFile (name : String) : String := preparer.tempDir ++ "/" ++ name

/-- `downloader_is_remote_source`. -/
def isRemoteSource (source : String) : Bool := source.toList.tails.any "://".toList.isPrefixOf

/-- The name a file has as long as it is not complete, `downloader_temp_path_for_target`. -/
def partName (name : String) : String := name ++ ".tmp"

/-- `download_to_path`, for a target in the directory for temporary files. -/
def downloadToPath (source name : String) (state : Preparation) : Preparation × Bool :=
  if !isRemoteSource source then
    match preparer.localFile source with
    | none => (state, false)
    | some content =>
        if entryAt state.files name = some .directory then (state, false)
        else ({ state with files := Function.update state.files name (some (.file content)) }, true)
  else if entryAt state.files (partName name) = some .directory then (state, false)
  else
    let removed := { state with
      files := Function.update state.files (partName name) none
      transfers := state.transfers + 1 }
    match preparer.transfer state.transfers source with
    | none => (removed, false)
    | some content =>
        -- The rename onto a directory fails, and the part is removed.
        if entryAt state.files name = some .directory then (removed, false)
        else ({ removed with files := Function.update removed.files name (some (.file content)) }, true)

def extractArchiveToTempDirectory (files : Files) (path : String) : Files × Except String ArchiveResolution :=
  if !isGenericArchivePath path && !isArchiveWrapperPath path then (files, .ok { installPath := path })
  else preparer.processArchiveLayers files path

/-- The message of `resolve_local_target` when nothing installs a path. -/
def noSystemMessage (path : String) : String :=
  if (fileExtension path).isEmpty then
    "cannot determine system for local target: " ++ path ++ "\nUse: rqp install <system> <path>"
  else
    "no plugin found for file extension '" ++ fileExtension path ++ "': " ++ path ++
      "\nUse: rqp install <system> <path>"

def resolveLocalTarget (request : Request) (state : Preparation) : Preparation × Except String Request :=
  match extractArchiveToTempDirectory preparer state.files request.localPath with
  | (files, .error message) => ({ state with files := files }, .error message)
  | (files, .ok resolution) =>
      let state := { state with
        files := files
        tempFiles := if resolution.changed then state.tempFiles ++ resolution.cleanupPaths else state.tempFiles }
      let request := if resolution.changed then { request with localPath := resolution.installPath } else request
      if !request.system.isEmpty then (state, .ok request)
      else
        let system := preparer.resolveSystemForLocalTarget state.files request.localPath
        if !system.isEmpty then (state, .ok { request with system := system })
        else (state, .error (noSystemMessage request.localPath))

/-- The body of the loop of `prepare_requests_for_run`. -/
def prepareRequest (request : Request) (state : Preparation) : Preparation × Except Diagnostic Request :=
  if request.action ≠ .install ∨ request.usesLocalTarget = false then (state, .ok request)
  else if !isUrl request.localPath then
    match resolveLocalTarget preparer request state with
    | (state, .error message) => (state, .error (unresolvedLocalTarget request message))
    | (state, .ok resolved) => (state, .ok resolved)
  else
    let filename := urlFilename request.localPath
    match downloadToPath preparer request.localPath filename state with
    | (state, false) => (state, .error (downloadFailed request (tempFile preparer filename)))
    | (state, true) =>
        let state := { state with tempFiles := state.tempFiles ++ [tempFile preparer filename] }
        let downloaded := { request with localPath := tempFile preparer filename }
        match resolveLocalTarget preparer downloaded state with
        | (state, .error message) => (state, .error (unresolvedDownload downloaded message))
        | (state, .ok resolved) => (state, .ok resolved)

def prepareRequests : List Request → Preparation → Preparation × Except Diagnostic (List Request)
  | [], state => (state, .ok [])
  | request :: requests, state =>
      match prepareRequest preparer request state with
      | (state, .error diagnostic) => (state, .error diagnostic)
      | (state, .ok prepared) =>
          match prepareRequests requests state with
          | (state, .error diagnostic) => (state, .error diagnostic)
          | (state, .ok others) => (state, .ok (prepared :: others))

/-- `prepare_requests_for_run`: the requests to run, or what is said about the failure. -/
def prepareRequestsForRun (requests : List Request) (files : Files) :
    Preparation × Except (Option Diagnostic) (List Request) :=
  match prepareRequests preparer requests { files := files } with
  | (state, .error diagnostic) => (state, .error (some diagnostic))
  | (state, .ok prepared) =>
      match resolveRequests preparer.proxies prepared with
      | .error message => (state, .error (if message.isEmpty then none else some (resolutionFailed message)))
      | .ok resolved => (state, .ok resolved)

end Prepare

/-! ## Every request its own file -/

/-- A completed transfer. -/
structure Download where
  url : String
  content : Bytes
deriving DecidableEq, Repr

namespace Download

variable (download : Download)

def name : String := urlFilename download.url

/-- What a transfer does to the names in the directory. -/
def leaves (name : String) : Option (Option Entry) :=
  if name = download.name then some (some (.file download.content))
  else if name = partName download.name then some none
  else none

end Download

/-- The request installs what a URL names. -/
def IsUrlInstall (request : Request) : Prop :=
  request.action = .install ∧ request.usesLocalTarget = true ∧ isUrl request.localPath = true

/-- What the URL brings is no archive by its name. -/
def PlainDownload (request : Request) : Prop :=
  isGenericArchivePath (urlFilename request.localPath) = false ∧
    isArchiveWrapperPath (urlFilename request.localPath) = false

/-- A proxy that is asked about a local target passes that very target on. -/
def PassesTargetsOn (proxies : Proxies) : Prop :=
  ∀ system request answer, proxies.resolveProxyRequest system request = some answer →
    request.usesLocalTarget = true →
      answer.packages = none ∧ ∀ localPath, answer.localPath = some localPath → localPath = request.localPath

/-- The content came with a transfer from the URL in this run. -/
def ComesFrom (preparer : Preparer) (requests : List Request) (url : String) (content : Bytes) : Prop :=
  ∃ number, (requests.map (·.localPath))[number]? = some url ∧ preparer.transfer number url = some content

/-- The path leads to a file with that content in the directory for temporary files. -/
def Holds (preparer : Preparer) (files : Files) (path : String) (content : Bytes) : Prop :=
  ∃ name, path = tempFile preparer name ∧ files name = some (.file content)

/-- Below the directory, without going up again. -/
def StrictlyInside (directory path : String) : Prop :=
  ∃ parts : List String, parts ≠ [] ∧ (∀ part ∈ parts, Path.Plain part ∧ '/' ∉ part.toList) ∧
    path = directory ++ "/" ++ Path.text parts

structure OwnFiles (preparer : Preparer) (requests prepared : List Request) (files : Files) : Prop where
  complete : prepared.length = requests.length
  own : ∀ pair ∈ requests.zip prepared, ∃ content,
    ComesFrom preparer requests pair.1.localPath content ∧ Holds preparer files pair.2.localPath content
  apart : ∀ first ∈ requests.zip prepared, ∀ second ∈ requests.zip prepared,
    first.1.localPath ≠ second.1.localPath → first.2.localPath ≠ second.2.localPath
  inside : ∀ request ∈ prepared, StrictlyInside preparer.tempDir request.localPath

/-- Different URLs end in different names. -/
def OneNameEach (urls : List String) : Prop :=
  ∀ first ∈ urls, ∀ second ∈ urls, urlFilename first = urlFilename second → first = second

/-- A file that had the name of the part of a later one is fetched once more after that. -/
def FetchedAgain (urls : List String) : Prop :=
  ∀ before first between second after, urls = before ++ first :: between ++ second :: after →
    partName (urlFilename second) = urlFilename first → ∃ again ∈ after, urlFilename again = urlFilename first

section Names

variable {preparer : Preparer} {files : Files} {url name : String}

theorem urlFilename_plain (url : String) : '/' ∉ (urlFilename url).toList := by
  rw [urlFilename]
  split
  · decide
  · rename_i front raw split
    split
    · decide
    · intro member
      rw [String.toList_ofList] at member
      exact splitLast_back_plain split ((List.takeWhile_sublist _).subset member)

theorem tempFile_injective {other : String} (same : tempFile preparer name = tempFile preparer other) : name = other := by
  have letters := congrArg String.toList same
  simp only [tempFile, String.toList_append, List.append_cancel_left_eq] at letters
  exact String.toList_inj.mp letters

theorem name_ne_partName (name : String) : name ≠ partName name := by
  intro same
  have lengths := congrArg String.length same
  simp [partName] at lengths

theorem isRemoteSource_of_isUrl (urlGiven : isUrl url = true) : isRemoteSource url = true := by
  have remote : ∀ scheme : List Char, (scheme ++ "://".toList).isPrefixOf url.toList = true →
      isRemoteSource url = true := by
    intro scheme leading
    obtain ⟨rest, whole⟩ := List.isPrefixOf_iff_prefix.mp leading
    rw [isRemoteSource, List.any_eq_true]
    refine ⟨"://".toList ++ rest, ?_, ?_⟩
    · rw [List.mem_tails, ← whole, List.append_assoc]
      exact List.suffix_append _ _
    · exact List.isPrefixOf_iff_prefix.mpr (List.prefix_append _ _)
  simp only [isUrl, startsWith, Bool.or_eq_true] at urlGiven
  rcases urlGiven with (plain | secure) | here
  · exact remote "http".toList plain
  · exact remote "https".toList secure
  · exact remote "file".toList here

theorem strictlyInside_tempFile (directory : entryAt files name ≠ some .directory) (plain : '/' ∉ name.toList) :
    StrictlyInside preparer.tempDir (tempFile preparer name) := by
  refine ⟨[name], by simp, ?_, ?_⟩
  · intro part member
    rw [List.mem_singleton.mp member]
    refine ⟨⟨?_, ?_, ?_⟩, plain⟩
    · rintro rfl
      exact directory rfl
    · rintro rfl
      exact directory rfl
    · rintro rfl
      exact directory rfl
  · simp [tempFile, Path.text]

end Names

section Downloads

variable {preparer : Preparer} {request resolved : Request} {state done : Preparation}

/-- What a request for a URL has become. -/
structure Fetched (preparer : Preparer) (request prepared : Request) : Prop where
  localPath : prepared.localPath = tempFile preparer (urlFilename request.localPath)
  usesLocalTarget : prepared.usesLocalTarget = true
  inside : StrictlyInside preparer.tempDir prepared.localPath

theorem downloadToPath_spec {url : String} (remote : isRemoteSource url = true)
    (succeeds : downloadToPath preparer url (urlFilename url) state = (done, true)) :
    ∃ content, preparer.transfer state.transfers url = some content ∧
      entryAt state.files (urlFilename url) ≠ some .directory ∧ done.transfers = state.transfers + 1 ∧
      done.files = replay Download.leaves [⟨url, content⟩] state.files := by
  simp only [downloadToPath, remote, Bool.not_true, Bool.false_eq_true, if_false] at succeeds
  split at succeeds
  · cases succeeds
  split at succeeds
  · cases succeeds
  · rename_i content brought
    split at succeeds
    · cases succeeds
    · rename_i free
      cases succeeds
      refine ⟨content, brought, free, rfl, ?_⟩
      funext key
      by_cases whole : key = urlFilename url
      · simp [whole, replay, Download.leaves, Download.name]
      · by_cases part : key = partName (urlFilename url)
        · subst part
          simp [whole, replay, Download.leaves, Download.name]
        · simp [whole, part, replay, Download.leaves, Download.name]

theorem extractArchive_plain (preparer : Preparer) (files : Files) (path : String) (generic : isGenericArchivePath path = false)
    (wrapper : isArchiveWrapperPath path = false) :
    extractArchiveToTempDirectory preparer files path = (files, .ok { installPath := path }) := by
  rw [extractArchiveToTempDirectory, generic, wrapper]
  rfl

theorem resolveLocalTarget_plain (request : Request) (generic : isGenericArchivePath request.localPath = false)
    (wrapper : isArchiveWrapperPath request.localPath = false)
    (succeeds : resolveLocalTarget preparer request state = (done, .ok resolved)) :
    done.files = state.files ∧ done.transfers = state.transfers ∧ resolved.localPath = request.localPath ∧
      resolved.usesLocalTarget = request.usesLocalTarget := by
  have unchanged := extractArchive_plain preparer state.files request.localPath generic wrapper
  unfold resolveLocalTarget at succeeds
  rw [unchanged] at succeeds
  simp only [Bool.false_eq_true, if_false] at succeeds
  split at succeeds
  · cases succeeds
    exact ⟨rfl, rfl, rfl, rfl⟩
  split at succeeds
  · cases succeeds
    exact ⟨rfl, rfl, rfl, rfl⟩
  · cases succeeds

theorem prepareRequest_spec (install : IsUrlInstall request) (plain : PlainDownload request)
    (succeeds : prepareRequest preparer request state = (done, .ok resolved)) :
    Fetched preparer request resolved ∧ ∃ content,
      preparer.transfer state.transfers request.localPath = some content ∧ done.transfers = state.transfers + 1 ∧
        done.files = replay Download.leaves [⟨request.localPath, content⟩] state.files := by
  obtain ⟨action, target, url⟩ := install
  have localTarget : ¬(request.action ≠ .install ∨ request.usesLocalTarget = false) := by simp [action, target]
  have remote : ¬(!isUrl request.localPath) = true := by simp [url]
  unfold prepareRequest at succeeds
  rw [if_neg localTarget, if_neg remote] at succeeds
  simp only at succeeds
  split at succeeds
  · cases succeeds
  · rename_i downloaded fetched
    obtain ⟨content, brought, free, counted, files⟩ := downloadToPath_spec (isRemoteSource_of_isUrl url) fetched
    split at succeeds
    · cases succeeds
    · rename_i result found
      cases succeeds
      have slashless := urlFilename_plain request.localPath
      have generic : isGenericArchivePath (tempFile preparer (urlFilename request.localPath)) = false := by
        rw [isGenericArchivePath, genericArchiveSuffix, tempFile, suffixAmong_child _ _ slashless]
        exact plain.1
      have wrapper : isArchiveWrapperPath (tempFile preparer (urlFilename request.localPath)) = false := by
        rw [isArchiveWrapperPath, archiveWrapperSuffix, tempFile, suffixAmong_child _ _ slashless]
        exact plain.2
      obtain ⟨sameFiles, sameTransfers, path, uses⟩ := resolveLocalTarget_plain
        { request with localPath := tempFile preparer (urlFilename request.localPath) } generic wrapper found
      refine ⟨⟨path, uses.trans target, ?_⟩, content, brought, ?_, ?_⟩
      · rw [path]
        exact strictlyInside_tempFile free slashless
      · rw [sameTransfers]
        exact counted
      · rw [sameFiles]
        exact files

theorem prepareRequests_spec {requests prepared : List Request} (installs : ∀ request ∈ requests, IsUrlInstall request)
    (plain : ∀ request ∈ requests, PlainDownload request)
    (succeeds : prepareRequests preparer requests state = (done, .ok prepared)) :
    List.Forall₂ (Fetched preparer) requests prepared ∧ ∃ downloads : List Download,
      downloads.map Download.url = requests.map (·.localPath) ∧
      (∀ (number : Nat) download, downloads[number]? = some download →
        preparer.transfer (state.transfers + number) download.url = some download.content) ∧
      done.files = replay Download.leaves downloads state.files := by
  induction requests generalizing state prepared with
  | nil =>
      cases succeeds
      exact ⟨List.Forall₂.nil, [], rfl, by simp, rfl⟩
  | cons request requests ih =>
      rw [List.forall_mem_cons] at installs plain
      rw [prepareRequests] at succeeds
      split at succeeds
      · cases succeeds
      · rename_i middle first firstPrepared
        split at succeeds
        · cases succeeds
        · rename_i last others rest
          cases succeeds
          obtain ⟨fetched, content, brought, counted, files⟩ := prepareRequest_spec installs.1 plain.1 firstPrepared
          obtain ⟨each, downloads, urls, transfers, allFiles⟩ := ih installs.2 plain.2 rest
          refine ⟨List.Forall₂.cons fetched each, ⟨request.localPath, content⟩ :: downloads, ?_, ?_, ?_⟩
          · rw [List.map_cons, List.map_cons, urls]
          · intro number download found
            cases number with
            | zero =>
                cases found
                exact brought
            | succ number =>
                have later := transfers number download found
                rwa [counted, Nat.add_right_comm] at later
          · rw [allFiles, files]
            rfl

end Downloads

section Targets

variable {proxies : Proxies} {request resolved : Request}

theorem journey_target {hops : List Hop} (passes : PassesTargetsOn proxies) (journey : Journey proxies request hops resolved)
    (uses : request.usesLocalTarget = true) : resolved.localPath = request.localPath := by
  induction journey with
  | settled there => rfl
  | @passed request resolved answer hops proxy answered journey ih =>
      obtain ⟨packages, target⟩ := passes _ _ _ answered uses
      have kept : ∀ system, (passedOn (named proxies request) system answer).usesLocalTarget = true ∧
          (passedOn (named proxies request) system answer).localPath = request.localPath := by
        intro system
        cases path : answer.localPath with
        | none => simpa [passedOn, path, packages] using ⟨uses, rfl⟩
        | some localPath =>
            have same : localPath = request.localPath := target localPath path
            simp [passedOn, path, same]
      obtain ⟨stillUses, same⟩ := kept (hopOf proxies (named proxies request) answer).target
      exact (ih stillUses).trans same

theorem resolveRequest_target (passes : PassesTargetsOn proxies) (resolves : resolveRequest proxies request = .ok resolved)
    (uses : request.usesLocalTarget = true) : resolved.localPath = request.localPath := by
  rw [resolveRequest] at resolves
  split at resolves
  · cases resolves
    rfl
  · obtain ⟨hops, journey, -⟩ := resolveRequestRecursive_journey resolves
    exact journey_target passes journey uses

end Targets

section Runs

variable {preparer : Preparer} {requests prepared : List Request} {start files : Files} {downloads : List Download}
variable {state : Preparation}

/-- A request has the path of its URL's name. -/
structure Placed (preparer : Preparer) (request prepared : Request) : Prop where
  localPath : prepared.localPath = tempFile preparer (urlFilename request.localPath)
  inside : StrictlyInside preparer.tempDir prepared.localPath

/-- A run of transfers, one for each request. -/
structure TransferRun (preparer : Preparer) (requests prepared : List Request) (start files : Files)
    (downloads : List Download) : Prop where
  urls : downloads.map Download.url = requests.map (·.localPath)
  transfers : ∀ (number : Nat) download, downloads[number]? = some download →
    preparer.transfer number download.url = some download.content
  files : files = replay Download.leaves downloads start
  placed : List.Forall₂ (Placed preparer) requests prepared

theorem placed_of_resolved {fetched : List Request} (passes : PassesTargetsOn preparer.proxies)
    (each : List.Forall₂ (Fetched preparer) requests fetched)
    (resolves : List.Forall₂ (fun request resolved => resolveRequest preparer.proxies request = .ok resolved)
      fetched prepared) :
    List.Forall₂ (Placed preparer) requests prepared := by
  induction each generalizing prepared with
  | nil =>
      cases resolves
      exact List.Forall₂.nil
  | cons first rest ih =>
      cases resolves with
      | cons firstResolves restResolves =>
          have same := resolveRequest_target passes firstResolves first.usesLocalTarget
          refine List.Forall₂.cons ⟨same.trans first.localPath, ?_⟩ (ih restResolves)
          rw [same]
          exact first.inside

theorem prepareRequestsForRun_transfers (installs : ∀ request ∈ requests, IsUrlInstall request)
    (plain : ∀ request ∈ requests, PlainDownload request) (passes : PassesTargetsOn preparer.proxies)
    (succeeds : prepareRequestsForRun preparer requests start = (state, .ok prepared)) :
    ∃ downloads, TransferRun preparer requests prepared start state.files downloads := by
  unfold prepareRequestsForRun at succeeds
  split at succeeds
  · cases succeeds
  · rename_i done fetched loop
    obtain ⟨each, downloads, urls, transfers, left⟩ := prepareRequests_spec installs plain loop
    split at succeeds
    · cases succeeds
    · rename_i resolved resolves
      cases succeeds
      refine ⟨downloads, urls, ?_, left, placed_of_resolved passes each (resolveRequests_all.1 _ resolves)⟩
      intro number download found
      have brought := transfers number download found
      rwa [Nat.zero_add] at brought

theorem Download.leaves_file {download : Download} : download.leaves download.name = some (some (.file download.content)) := by
  simp [Download.leaves]

theorem Download.leaves_part {download : Download} : download.leaves (partName download.name) = some none := by
  simp [Download.leaves, Ne.symm (name_ne_partName download.name)]

/-- A transfer that touches a name brings its file, or has it for the part of its own. -/
theorem Download.leaves_cases {download : Download} {name : String} {value : Option Entry}
    (leaves : download.leaves name = some value) :
    (name = download.name ∧ value = some (.file download.content)) ∨ (name = partName download.name ∧ value = none) := by
  rw [Download.leaves] at leaves
  split at leaves
  · cases leaves
    exact Or.inl ⟨by assumption, rfl⟩
  · split at leaves
    · cases leaves
      exact Or.inr ⟨by assumption, rfl⟩
    · cases leaves

namespace TransferRun

variable (run : TransferRun preparer requests prepared start files downloads)
include run

theorem mem_urls {download : Download} (member : download ∈ downloads) :
    download.url ∈ requests.map (·.localPath) := by
  rw [← run.urls]
  exact List.mem_map_of_mem member

theorem comesFrom {download : Download} (member : download ∈ downloads) :
    ComesFrom preparer requests download.url download.content := by
  obtain ⟨number, found⟩ := List.mem_iff_getElem?.mp member
  refine ⟨number, ?_, run.transfers number download found⟩
  rw [← run.urls, List.getElem?_map, found]
  rfl

theorem placed_of_mem {pair : Request × Request} (member : pair ∈ requests.zip prepared) : Placed preparer pair.1 pair.2 :=
  List.forall₂_zip run.placed member

theorem exists_pair {url : String} (member : url ∈ requests.map (·.localPath)) :
    ∃ pair ∈ requests.zip prepared, pair.1.localPath = url := by
  obtain ⟨request, inside, rfl⟩ := List.mem_map.mp member
  obtain ⟨number, found⟩ := List.mem_iff_getElem?.mp inside
  obtain ⟨short, _⟩ := List.getElem?_eq_some_iff.mp found
  have both : number < (requests.zip prepared).length := by
    rw [List.length_zip, ← run.placed.length_eq, Nat.min_self]
    exact short
  refine ⟨(requests.zip prepared)[number], List.getElem_mem both, ?_⟩
  rw [List.getElem_zip]
  exact congrArg Request.localPath (List.getElem?_eq_some_iff.mp found).2

/-- A transfer whose file was the last to be touched left that file. -/
theorem holds_of_kept (names : OneNameEach (requests.map (·.localPath))) (again : FetchedAgain (requests.map (·.localPath)))
    {url : String} (member : url ∈ requests.map (·.localPath)) :
    ∃ content, ComesFrom preparer requests url content ∧ files (urlFilename url) = some (.file content) := by
  have fetched : ∃ download ∈ downloads, download.url = url := by
    rw [← run.urls] at member
    exact List.mem_map.mp member
  obtain ⟨own, ownMember, rfl⟩ := fetched
  have touched : ∃ download ∈ downloads, download.leaves own.name ≠ none :=
    ⟨own, ownMember, by rw [Download.leaves_file]; exact Option.some_ne_none _⟩
  obtain ⟨before, last, after, value, split, writes, untouched⟩ := exists_last_write touched
  have lastMember : last ∈ downloads := by
    rw [split]
    exact List.mem_append_right _ List.mem_cons_self
  have kept : files own.name = value := by
    rw [run.files, split]
    exact replay_last writes untouched
  have unnamed : ∀ later ∈ after, later.name ≠ own.name := by
    intro later laterMember same
    have leaves := untouched later laterMember
    rw [← same, Download.leaves_file] at leaves
    cases leaves
  rcases Download.leaves_cases writes with ⟨same, rfl⟩ | ⟨part, rfl⟩
  · have url : last.url = own.url := names _ (run.mem_urls lastMember) _ (run.mem_urls ownMember) same.symm
    refine ⟨last.content, ?_, kept⟩
    rw [← url]
    exact run.comesFrom lastMember
  · -- The file of the URL was the part of a later one, so it came once more behind that.
    exfalso
    have earlier : own ∈ before := by
      rw [split] at ownMember
      rcases List.mem_append.mp ownMember with front | back
      · exact front
      · rcases List.mem_cons.mp back with rfl | behind
        · exact absurd part (name_ne_partName own.name)
        · exact absurd rfl (unnamed own behind)
    obtain ⟨front, between, rfl⟩ := List.append_of_mem earlier
    have urls : requests.map (·.localPath) =
        front.map Download.url ++ own.url :: between.map Download.url ++ last.url :: after.map Download.url := by
      rw [← run.urls, split]
      simp
    obtain ⟨url, urlMember, same⟩ := again _ _ _ _ _ urls part.symm
    obtain ⟨later, laterMember, rfl⟩ := List.mem_map.mp urlMember
    exact unnamed later laterMember same

theorem oneNameEach_of_apart (own : OwnFiles preparer requests prepared files) :
    OneNameEach (requests.map (·.localPath)) := by
  intro first firstMember second secondMember same
  obtain ⟨firstPair, firstInside, rfl⟩ := run.exists_pair firstMember
  obtain ⟨secondPair, secondInside, rfl⟩ := run.exists_pair secondMember
  by_contra different
  refine own.apart firstPair firstInside secondPair secondInside different ?_
  rw [(run.placed_of_mem firstInside).localPath, (run.placed_of_mem secondInside).localPath, same]

theorem fetchedAgain_of_own (own : OwnFiles preparer requests prepared files) :
    FetchedAgain (requests.map (·.localPath)) := by
  intro before first between second after urls part
  by_contra never
  have firstMember : first ∈ requests.map (·.localPath) := by
    rw [urls]
    simp
  obtain ⟨pair, inside, same⟩ := run.exists_pair firstMember
  obtain ⟨content, -, name, path, holds⟩ := own.own pair inside
  rw [(run.placed_of_mem inside).localPath, same] at path
  rw [← tempFile_injective path, run.files] at holds
  rw [← run.urls, List.map_eq_append_iff] at urls
  obtain ⟨front, rest, rfl, -, behind⟩ := urls
  obtain ⟨download, others, rfl, rfl, rfl⟩ := List.map_eq_cons_iff.mp behind
  have touched : ∃ later ∈ download :: others, later.leaves (urlFilename first) ≠ none := by
    refine ⟨download, List.mem_cons_self, ?_⟩
    rw [← part]
    exact Option.ne_none_iff_exists'.mpr ⟨none, Download.leaves_part⟩
  obtain ⟨between, last, following, value, split, writes, untouched⟩ := exists_last_write touched
  rw [split, ← List.append_assoc, replay_last writes untouched] at holds
  subst holds
  rcases Download.leaves_cases writes with ⟨same, -⟩ | ⟨-, removed⟩
  · have lastMember : last ∈ download :: others := by
      rw [split]
      simp
    rcases List.mem_cons.mp lastMember with rfl | later
    · exact name_ne_partName _ (same.symm.trans part.symm)
    · exact never ⟨last.url, List.mem_map_of_mem later, same.symm⟩
  · cases removed

end TransferRun

/-- Requests for URLs have a file each when different URLs end in different names and no
part of a download was the file of an earlier one for good. -/
theorem ownFiles_iff_names_apart (installs : ∀ request ∈ requests, IsUrlInstall request)
    (plain : ∀ request ∈ requests, PlainDownload request) (passes : PassesTargetsOn preparer.proxies)
    (succeeds : prepareRequestsForRun preparer requests start = (state, .ok prepared)) :
    OwnFiles preparer requests prepared state.files ↔
      OneNameEach (requests.map (·.localPath)) ∧ FetchedAgain (requests.map (·.localPath)) := by
  obtain ⟨downloads, run⟩ := prepareRequestsForRun_transfers installs plain passes succeeds
  constructor
  · intro own
    exact ⟨run.oneNameEach_of_apart own, run.fetchedAgain_of_own own⟩
  · rintro ⟨names, again⟩
    refine ⟨run.placed.length_eq.symm, ?_, ?_, ?_⟩
    · intro pair member
      obtain ⟨content, comes, file⟩ := run.holds_of_kept names again
        (List.mem_map_of_mem (List.of_mem_zip member).1)
      exact ⟨content, comes, _, (run.placed_of_mem member).localPath, file⟩
    · intro first firstMember second secondMember different same
      rw [(run.placed_of_mem firstMember).localPath, (run.placed_of_mem secondMember).localPath] at same
      exact different (names _ (List.mem_map_of_mem (List.of_mem_zip firstMember).1) _
        (List.mem_map_of_mem (List.of_mem_zip secondMember).1) (tempFile_injective same))
    · intro request member
      obtain ⟨number, found⟩ := List.mem_iff_getElem.mp member
      obtain ⟨short, found⟩ := found
      have both : number < (requests.zip prepared).length := by
        rw [List.length_zip, run.placed.length_eq, Nat.min_self]
        exact short
      have placed := run.placed_of_mem (List.getElem_mem both)
      rw [List.getElem_zip, found] at placed
      exact placed.inside

end Runs

/-- Two servers with a package each, and a proxy that passes everything on to another system. -/
def twoServers : Preparer where
  tempDir := "/tmp/reqpack"
  transfer _ url :=
    if url = "https://one.example/tool.jar" then some [1]
    else if url = "https://two.example/tool.jar" ∨ url = "https://two.example/lib.jar?raw" then some [2]
    else none
  localFile _ := none
  processArchiveLayers files path := (files, .ok { installPath := path })
  resolveSystemForLocalTarget _ _ := "java"
  proxies :=
    { enableProxyExpansion := true
      resolvePluginName := id
      loadPlugin := fun _ => true
      supportsProxyResolution := fun system => system == "java"
      resolveProxyRequest := fun _ request => some
        { targetSystem := "maven"
          flags := some request.flags
          localPath := if request.usesLocalTarget then some request.localPath else none
          packages := if request.usesLocalTarget then none else some request.packages }
      targets := fun _ => [] }

def urlInstall (url : String) : Request := { action := .install, localPath := url, usesLocalTarget := true }

theorem twoServers_passesTargetsOn : PassesTargetsOn twoServers.proxies := by
  intro system request answer answered uses
  simp only [twoServers, uses, if_true, Option.some.injEq] at answered
  subst answered
  refine ⟨rfl, fun localPath same => ?_⟩
  cases same
  rfl

theorem run_eq {run : Preparation × Except (Option Diagnostic) (List Request)} {prepared : List Request}
    (succeeds : run.2 = .ok prepared) : run = (run.1, .ok prepared) := by
  rw [← succeeds]

theorem fetchedAgain_of_no_part {urls : List String}
    (apart : ∀ first ∈ urls, ∀ second ∈ urls, partName (urlFilename second) ≠ urlFilename first) :
    FetchedAgain urls := by
  rintro before first between second after rfl part
  exact absurd part (apart first (by simp) second (by simp))

/-- Two packages with different names, one of them behind a query. -/
def differentNames : List Request :=
  [urlInstall "https://one.example/tool.jar", urlInstall "https://two.example/lib.jar?raw"]

theorem ownFiles_of_different_names :
    ∃ state prepared, prepareRequestsForRun twoServers differentNames (fun _ => none) = (state, .ok prepared) ∧
      OwnFiles twoServers differentNames prepared state.files := by
  have installs : ∀ request ∈ differentNames, IsUrlInstall request := by
    rw [differentNames, List.forall_mem_cons, List.forall_mem_singleton]
    exact ⟨⟨rfl, rfl, by decide⟩, rfl, rfl, by decide⟩
  have plain : ∀ request ∈ differentNames, PlainDownload request := by
    rw [differentNames, List.forall_mem_cons, List.forall_mem_singleton]
    exact ⟨⟨by decide +kernel, by decide +kernel⟩, by decide +kernel, by decide +kernel⟩
  have names : OneNameEach (differentNames.map (·.localPath)) := by
    simp only [OneNameEach, differentNames, urlInstall, List.map_cons, List.map_nil, List.forall_mem_cons]
    decide +kernel
  have again : FetchedAgain (differentNames.map (·.localPath)) := by
    apply fetchedAgain_of_no_part
    simp only [differentNames, urlInstall, List.map_cons, List.map_nil, List.forall_mem_cons]
    decide +kernel
  have succeeds : (prepareRequestsForRun twoServers differentNames fun _ => none).2 =
      .ok (["/tmp/reqpack/tool.jar", "/tmp/reqpack/lib.jar"].map fun path =>
        { urlInstall path with system := "maven" }) := by decide +kernel
  exact ⟨_, _, run_eq succeeds,
    (ownFiles_iff_names_apart installs plain twoServers_passesTargetsOn (run_eq succeeds)).2 ⟨names, again⟩⟩

/-- The same name on both servers. -/
def sameName : List Request :=
  [urlInstall "https://one.example/tool.jar", urlInstall "https://two.example/tool.jar"]

theorem same_name_is_overwritten :
    (∀ request ∈ sameName, IsUrlInstall request) ∧ (∀ request ∈ sameName, PlainDownload request) ∧
      PassesTargetsOn twoServers.proxies ∧
      ∃ state prepared, prepareRequestsForRun twoServers sameName (fun _ => none) = (state, .ok prepared) ∧
        ¬OwnFiles twoServers sameName prepared state.files := by
  refine ⟨?_, ?_, twoServers_passesTargetsOn, ?_⟩
  · rw [sameName, List.forall_mem_cons, List.forall_mem_singleton]
    exact ⟨⟨rfl, rfl, by decide⟩, rfl, rfl, by decide⟩
  · rw [sameName, List.forall_mem_cons, List.forall_mem_singleton]
    exact ⟨⟨by decide +kernel, by decide +kernel⟩, by decide +kernel, by decide +kernel⟩
  · let installed : Request := { urlInstall "/tmp/reqpack/tool.jar" with system := "maven" }
    have succeeds : (prepareRequestsForRun twoServers sameName fun _ => none).2 = .ok [installed, installed] := by
      decide +kernel
    refine ⟨_, _, run_eq succeeds, fun own => ?_⟩
    have apart := own.apart (urlInstall "https://one.example/tool.jar", installed) (by simp [sameName])
      (urlInstall "https://two.example/tool.jar", installed) (by simp [sameName]) (by decide)
    exact apart rfl

end ReqPack.Workflow
