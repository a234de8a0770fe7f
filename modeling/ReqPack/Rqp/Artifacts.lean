import ReqPack.Rqp.MetadataRoundTrip
import ReqPack.Rqp.Persistence

/-! # What an install hook leaves behind

`RqpPlugin::installPackagePath` runs the install hook and then writes the state.  The calls
of the hook register the paths they make; the registrations become the manifest.
-/

namespace ReqPack.Rqp.Artifacts

open ReqPack.Data
open ReqPack.Data.Ascii
open ReqPack.Data.FileSystem

/-- `parent_path`. -/
def parentPath (path : Bytes) : Bytes :=
  let upToSlash := path.reverse.dropWhile (· != slash)
  let parent := (upToSlash.dropWhile (· == slash)).reverse
  if upToSlash.isEmpty then [] else if parent.isEmpty then [slash] else parent

def manifestPayloadJson (entry : ManifestEntry) : Bytes :=
  bytes "\x7b\"type\": \"" ++ entry.type ++ bytes "\", \"path\": \"" ++ entry.path ++ bytes "\"\x7d"

/-! ## Hooks -/

/-- The functions of `context.fs` and `context.artifacts` that register a path. -/
inductive HookCall
  | copy (source destination : Bytes)
  | mkdir (path : Bytes)
  | registerFile (path : Bytes)
  | registerDir (path : Bytes)
  | registerSymlink (path : Bytes)
deriving DecidableEq, Repr

/-- How a hook ends: with a Lua error, or with its first result, if that is a boolean. -/
inductive HookEnd
  | error
  | returned (answer : Option Bool)
deriving DecidableEq, Repr

structure InstallHook where
  calls : List HookCall
  ending : HookEnd

namespace HookCall

/-- The registered path, under its type. -/
def entry : HookCall → ManifestEntry
  | copy _ destination => ⟨bytes "file", destination⟩
  | mkdir path => ⟨bytes "dir", path⟩
  | registerFile path => ⟨bytes "file", path⟩
  | registerDir path => ⟨bytes "dir", path⟩
  | registerSymlink path => ⟨bytes "symlink", path⟩

/-- The call makes what it registers. -/
def makes : HookCall → Bool
  | copy _ _ => true
  | mkdir _ => true
  | _ => false

/-- A call that fails raises a Lua error before it registers anything. -/
def perform (env : FileEnv) (disk : PayloadDisk) : HookCall → Outcome Bytes Bytes
  | copy source destination => (env.makeDirectories (parentPath destination) disk).andThen (env.copy source destination)
  | mkdir path => env.makeDirectories path disk
  | _ => (disk, true)

end HookCall

section Hooks

variable (env : FileEnv) (readTree : Bytes → Option Ptree)

/-- The calls of a hook, which may catch their errors, and those that registered a path. -/
def runCalls : List HookCall → PayloadDisk → PayloadDisk × List HookCall
  | [], disk => (disk, [])
  | call :: calls, disk =>
      let outcome := call.perform env disk
      let rest := runCalls calls outcome.1
      (rest.1, if outcome.2 then call :: rest.2 else rest.2)

/-- The loop over the artifacts at the end of `runHook`. -/
def takeArtifacts (performed : List HookCall) : List ManifestEntry :=
  performed.filterMap fun call => (readTree (manifestPayloadJson call.entry)).map readEntry

structure HookRun where
  disk : PayloadDisk
  performed : List HookCall
  pendingManifest : List ManifestEntry
  accepted : Bool

/-- `runHook` with the key `install`, when nothing is pending. -/
def runInstallHook (layout : RqPackageLayout) (hook : InstallHook) (disk : PayloadDisk) : HookRun :=
  match layout.hooks.lookup (bytes "install") with
  | none => ⟨disk, [], [], true⟩
  | some file =>
      if env.read disk.nodes (joinPath layout.controlDir file) = none then ⟨disk, [], [], false⟩
      else
        let run := runCalls env hook.calls disk
        match hook.ending with
        | .error => ⟨run.1, run.2, [], false⟩
        | .returned answer => ⟨run.1, run.2, takeArtifacts readTree run.2, answer.getD true⟩

end Hooks

/-! ## The installation -/

structure InstallRun where
  disk : PayloadDisk
  performed : List HookCall
  pendingManifest : List ManifestEntry
  installed : Bool

section Installing

variable (env : FileEnv) (json : JsonText)

/-- `installPackagePath` once the archive is loaded, or was found unfit. -/
def installPackagePath (source : RqStateSource) (loaded : Option RqPackageLayout) (hook : InstallHook)
    (disk : PayloadDisk) : InstallRun :=
  match loaded with
  | none => ⟨disk, [], [], false⟩
  | some layout =>
      let run := runInstallHook env json.readTree layout hook disk
      if run.accepted then
        let persisted := persistInstalledState env json layout source run.pendingManifest run.disk
        ⟨persisted.1, run.performed, run.pendingManifest, persisted.2 == .done⟩
      else ⟨run.disk, run.performed, run.pendingManifest, false⟩

/-- The manifest of the state lists the entry. -/
def Listed (loaded : Option RqPackageLayout) (nodes : Nodes Bytes Bytes) (entry : ManifestEntry) : Prop :=
  ∃ layout ∈ loaded, ∃ content, env.read nodes (stateFile layout "manifest.json") = some content ∧
    entry ∈ parseManifestJson json.readTree content

/-- Every path that was registered is listed or gone. -/
def NoOrphans (loaded : Option RqPackageLayout) (run : InstallRun) : Prop :=
  ∀ call ∈ run.performed, Listed env json loaded run.disk.nodes call.entry ∨
    ¬env.Present run.disk.nodes call.entry.path

end Installing

/-! ### Nothing is taken back -/

section Kept

variable {env : FileEnv} {json : JsonText} {disk : PayloadDisk}

theorem HookCall.perform_extends (mounted : Mounted env.cwd disk.nodes) (call : HookCall) :
    Extends env.cwd disk (call.perform env disk).1 := by
  cases call with
  | copy source destination =>
      have first := @FileEnv.makeDirectories_extends env disk mounted (parentPath destination)
      rw [HookCall.perform, Outcome.andThen]
      split
      · exact first.trans (FileEnv.copy_extends first.mounted source destination)
      · exact first
  | mkdir path => exact FileEnv.makeDirectories_extends mounted path
  | registerFile path => exact Extends.refl mounted
  | registerDir path => exact Extends.refl mounted
  | registerSymlink path => exact Extends.refl mounted

theorem HookCall.perform_present (mounted : Mounted env.cwd disk.nodes) {call : HookCall} (makes : call.makes = true)
    (performed : (call.perform env disk).2 = true) : env.Present (call.perform env disk).1.nodes call.entry.path := by
  cases call with
  | copy source destination =>
      have first := @FileEnv.makeDirectories_extends env disk mounted (parentPath destination)
      rw [HookCall.perform, Outcome.andThen] at performed ⊢
      cases made : (env.makeDirectories (parentPath destination) disk).2 with
      | false =>
          rw [made] at performed
          exact absurd (made.symm.trans performed) (by decide)
      | true =>
          rw [made] at performed
          simp only [if_true] at performed ⊢
          obtain ⟨content, -, written, same⟩ := FileEnv.copy_writes performed
          rw [same]
          exact FileEnv.read_present (FileEnv.read_write first.mounted written)
  | mkdir path => exact FileEnv.makeDirectories_present mounted performed
  | registerFile path => cases makes
  | registerDir path => cases makes
  | registerSymlink path => cases makes

theorem runCalls_extends (mounted : Mounted env.cwd disk.nodes) (calls : List HookCall) :
    Extends env.cwd disk (runCalls env calls disk).1 := by
  induction calls generalizing disk with
  | nil => exact Extends.refl mounted
  | cons call calls ih =>
      have first := HookCall.perform_extends mounted call
      exact first.trans (ih first.mounted)

theorem runCalls_present (mounted : Mounted env.cwd disk.nodes) {calls : List HookCall} :
    ∀ call ∈ (runCalls env calls disk).2, call.makes = true →
      env.Present (runCalls env calls disk).1.nodes call.entry.path := by
  induction calls generalizing disk with
  | nil =>
      intro call none
      cases none
  | cons first calls ih =>
      intro call member makes
      have extended := HookCall.perform_extends mounted first
      rw [runCalls] at member ⊢
      cases performed : (first.perform env disk).2 with
      | false =>
          simp only [performed, Bool.false_eq_true, if_false] at member
          exact ih extended.mounted call member makes
      | true =>
          simp only [performed, if_true] at member
          rcases List.mem_cons.mp member with rfl | later
          · exact FileEnv.present_grows (runCalls_extends extended.mounted calls).grows
              (HookCall.perform_present mounted makes performed)
          · exact ih extended.mounted call later makes

theorem runInstallHook_kept (mounted : Mounted env.cwd disk.nodes) (layout : RqPackageLayout) (hook : InstallHook) :
    Extends env.cwd disk (runInstallHook env json.readTree layout hook disk).disk ∧
      ∀ call ∈ (runInstallHook env json.readTree layout hook disk).performed, call.makes = true →
        env.Present (runInstallHook env json.readTree layout hook disk).disk.nodes call.entry.path := by
  have untouched : Extends env.cwd disk disk ∧ ∀ call ∈ ([] : List HookCall), call.makes = true →
      env.Present disk.nodes call.entry.path := ⟨Extends.refl mounted, fun _ none => by cases none⟩
  rw [runInstallHook]
  split
  · exact untouched
  · split
    · exact untouched
    · split
      · exact ⟨runCalls_extends mounted _, runCalls_present mounted⟩
      · exact ⟨runCalls_extends mounted _, runCalls_present mounted⟩

theorem installPackagePath_kept (mounted : Mounted env.cwd disk.nodes) (source : RqStateSource)
    (loaded : Option RqPackageLayout) (hook : InstallHook) :
    Extends env.cwd disk (installPackagePath env json source loaded hook disk).disk ∧
      ∀ call ∈ (installPackagePath env json source loaded hook disk).performed, call.makes = true →
        env.Present (installPackagePath env json source loaded hook disk).disk.nodes call.entry.path := by
  cases loaded with
  | none => exact ⟨Extends.refl mounted, fun call none => by cases none⟩
  | some layout =>
      obtain ⟨extended, present⟩ := @runInstallHook_kept env json disk mounted layout hook
      rw [installPackagePath]
      simp only
      cases accepted : (runInstallHook env json.readTree layout hook disk).accepted with
      | false => exact ⟨extended, present⟩
      | true =>
          have persisted := @persistInstalledState_extends env json layout _ extended.mounted source
            (runInstallHook env json.readTree layout hook disk).pendingManifest
          exact ⟨extended.trans persisted, fun call member makes =>
            FileEnv.present_grows persisted.grows (present call member makes)⟩

end Kept

/-! ### What the manifest lists -/

/-- The payload of a registration, in which nothing is escaped, is read as that
registration. -/
def ReadsBack (readTree : Bytes → Option Ptree) (entry : ManifestEntry) : Prop :=
  (readTree (manifestPayloadJson entry)).map readEntry = some entry

theorem mem_takeArtifacts {readTree : Bytes → Option Ptree} {performed : List HookCall} {call : HookCall}
    (member : call ∈ performed) (back : ReadsBack readTree call.entry) : call.entry ∈ takeArtifacts readTree performed :=
  List.mem_filterMap.mpr ⟨call, member, back⟩

theorem runInstallHook_pending {env : FileEnv} {readTree : Bytes → Option Ptree} {layout : RqPackageLayout}
    {hook : InstallHook} {disk : PayloadDisk} (accepted : (runInstallHook env readTree layout hook disk).accepted = true) :
    (runInstallHook env readTree layout hook disk).pendingManifest =
      takeArtifacts readTree (runInstallHook env readTree layout hook disk).performed := by
  rw [runInstallHook] at accepted ⊢
  split
  · rfl
  · next file found =>
      rw [found] at accepted
      simp only at accepted ⊢
      split at accepted
      · cases accepted
      · next there =>
          rw [if_neg there]
          cases ended : hook.ending with
          | error =>
              rw [ended] at accepted
              cases accepted
          | returned answer => rfl

/-- An installation accounts in its manifest for every registration that reads back.  Whether
it succeeds or fails, it takes nothing back: what its hook made is still there. -/
theorem install_accounts_for_artifacts {env : FileEnv} {json : JsonText} {source : RqStateSource}
    {loaded : Option RqPackageLayout} {hook : InstallHook} {disk : PayloadDisk} (mounted : Mounted env.cwd disk.nodes)
    (reads : ReadsManifest json (installPackagePath env json source loaded hook disk).pendingManifest) :
    ((installPackagePath env json source loaded hook disk).installed = true →
        ∀ call ∈ (installPackagePath env json source loaded hook disk).performed, ReadsBack json.readTree call.entry →
          Listed env json loaded (installPackagePath env json source loaded hook disk).disk.nodes call.entry) ∧
      (∀ call ∈ (installPackagePath env json source loaded hook disk).performed, call.makes = true →
        env.Present (installPackagePath env json source loaded hook disk).disk.nodes call.entry.path) ∧
      ∀ path, env.Present disk.nodes path →
        env.Present (installPackagePath env json source loaded hook disk).disk.nodes path := by
  have kept := @installPackagePath_kept env json disk mounted source loaded hook
  refine ⟨fun installed call member back => ?_, kept.2, fun path => FileEnv.present_grows kept.1.grows⟩
  cases loaded with
  | none => cases installed
  | some layout =>
      have hooked := (@runInstallHook_kept env json disk mounted layout hook).1
      rw [installPackagePath] at installed member reads ⊢
      simp only at installed member reads ⊢
      cases accepted : (runInstallHook env json.readTree layout hook disk).accepted with
      | false =>
          simp only [accepted, Bool.false_eq_true, if_false] at installed
      | true =>
          simp only [accepted, if_true, beq_iff_eq] at installed member reads ⊢
          refine ⟨layout, rfl, _, persistInstalledState_manifest hooked.mounted installed, ?_⟩
          rw [parse_manifestJson reads, runInstallHook_pending accepted]
          exact mem_takeArtifacts member back

/-! ### A tool that is copied to its place -/

def toolLayout : RqPackageLayout where
  controlDir := bytes "/control"
  stateDir := bytes "/state"
  metadata := richMetadata []
  identity := bytes "rich@1.0-1+r0"
  hooks := [(bytes "install", bytes "reqpack.lua")]

def toolNodes : List (Location Bytes × Node Bytes Bytes) :=
  [([], .directory), ([bytes "control"], .directory), ([bytes "state"], .directory), ([bytes "opt"], .directory),
    ([bytes "reqpack.lua", bytes "control"], .file (bytes "return true"))]

def toolDisk : PayloadDisk := ⟨ofEntries toolNodes, []⟩

def toolFiles : FileEnv := ⟨8, [], fun _ _ => []⟩

def toolCall : HookCall := .copy (bytes "/control/reqpack.lua") (bytes "/opt/tool")

/-- A reader of the registration and of the manifest that lists it. -/
def toolReader (text : Bytes) : Option Ptree :=
  if text = manifestPayloadJson toolCall.entry then some (entryDocument toolCall.entry).tree
  else if text = manifestJson id [toolCall.entry] then some (manifestDocument [toolCall.entry]).tree
  else none

def toolJson : JsonText := ⟨toolReader, id⟩

def toolInstall (ending : HookEnd) : InstallRun :=
  installPackagePath toolFiles toolJson ⟨bytes "local-file", bytes "rich.rqp", [], []⟩ (some toolLayout)
    ⟨[toolCall], ending⟩ toolDisk

theorem toolDisk_mounted : Mounted toolFiles.cwd toolDisk.nodes :=
  ofEntries_mounted (by decide) (by decide) (by decide)

theorem toolInstall_run : (toolInstall (.returned none)).installed = true ∧
    (toolInstall (.returned none)).performed = [toolCall] ∧
    (toolInstall (.returned none)).pendingManifest = [toolCall.entry] := by
  decide +kernel

theorem toolReader_entry : ReadsBack toolReader toolCall.entry := by
  rw [ReadsBack, toolReader, if_pos rfl, Option.map_some, readEntry_document]

theorem toolReader_manifest : ReadsManifest toolJson [toolCall.entry] := by
  have apart : manifestJson id [toolCall.entry] ≠ manifestPayloadJson toolCall.entry := by decide +kernel
  have read : toolReader (manifestJson id [toolCall.entry]) = some (manifestDocument [toolCall.entry]).tree := by
    rw [toolReader, if_neg apart, if_pos rfl]
  exact read

theorem install_accounts_for_tool :
    Listed toolFiles toolJson (some toolLayout) (toolInstall (.returned none)).disk.nodes toolCall.entry ∧
      toolFiles.Present (toolInstall (.returned none)).disk.nodes toolCall.entry.path := by
  have reads : ReadsManifest toolJson (toolInstall (.returned none)).pendingManifest := by
    rw [toolInstall_run.2.2]
    exact toolReader_manifest
  have member : toolCall ∈ (toolInstall (.returned none)).performed := by
    rw [toolInstall_run.2.1]
    exact List.mem_singleton_self _
  obtain ⟨listed, made, -⟩ := install_accounts_for_artifacts toolDisk_mounted reads
  exact ⟨listed toolInstall_run.1 toolCall member toolReader_entry, made toolCall member rfl⟩

/-- A hook that fails leaves what it copied, and no manifest. -/
theorem failed_hook_leaves_tool :
    ¬NoOrphans toolFiles toolJson (some toolLayout) (toolInstall (.returned (some false))) := by
  have performed : (toolInstall (.returned (some false))).performed = [toolCall] := by decide +kernel
  have present : toolFiles.Present (toolInstall (.returned (some false))).disk.nodes (bytes "/opt/tool") := by
    decide +kernel
  have unwritten : toolFiles.read (toolInstall (.returned (some false))).disk.nodes (stateFile toolLayout "manifest.json") =
      none := by decide +kernel
  intro accounted
  rcases accounted toolCall (by rw [performed]; exact List.mem_singleton_self _) with listed | gone
  · obtain ⟨layout, same, content, read, -⟩ := listed
    cases Option.mem_some.mp same
    rw [unwritten] at read
    cases read
  · exact gone present

end ReqPack.Rqp.Artifacts
