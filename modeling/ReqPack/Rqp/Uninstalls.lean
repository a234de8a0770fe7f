import ReqPack.Rqp.ArtifactRemoval

/-! # Packages that are uninstalled

What is left of the artifacts of a package that was uninstalled, and of those of the others when
any number of packages is.
-/

namespace ReqPack.Rqp

open ReqPack.Data
open ReqPack.Data.Ascii
open ReqPack.Data.FileSystem
open ReqPack.PluginHost (pathOf)

/-! ## What is gone -/

/-- An entry of a manifest leads nowhere in the end, or was needed elsewhere when it was looked at, or was no empty
directory then. -/
def Settled (env : FileEnv) (reader : StateReader) (root : Bytes) (installed : LoadedState) (nodes later : Nodes Bytes Bytes)
    (entry : ManifestEntry) : Prop :=
  env.failureAt later entry.path ≠ none ∨ ∃ between, Taken nodes between ∧ Taken between later ∧
    (pathStillNeededElsewhere env reader between root installed entry.path = .ok true ∨
      (entry.type = bytes "dir" ∧ ¬ EmptyDirectory env between entry.path))

section Gone

variable {env : FileEnv} {reader : StateReader} {root path : Bytes} {top place : Location Bytes} {disk : PayloadDisk}
variable {nodes later : Nodes Bytes Bytes} {state : RqpState} {listed : List LoadedState} {installed : LoadedState}
variable {stuck : List (Location Bytes)} {manifest entries : List ManifestEntry} {entry : ManifestEntry}

theorem resolve_taken {follow : Bool} (taken : Taken nodes later) (found : env.resolve follow later path = .found place) :
    env.resolve follow nodes path = .found place := by
  rw [FileEnv.resolve] at found ⊢
  split at found
  · cases found
  · next filled =>
      rw [if_neg filled]
      exact walk_grows taken.grows found

theorem failureAt_taken (taken : Taken nodes later) (gone : env.failureAt nodes path ≠ none) : env.failureAt later path ≠ none := by
  intro there
  obtain ⟨place, found⟩ := failureAt_eq_none_iff.1 there
  exact gone (failureAt_eq_none_iff.2 ⟨place, resolve_taken taken found⟩)

theorem Settled.onward {final : Nodes Bytes Bytes} (settled : Settled env reader root installed nodes later entry)
    (taken : Taken later final) : Settled env reader root installed nodes final entry := by
  obtain gone | ⟨between, before, after, kept⟩ := settled
  · exact Or.inl (failureAt_taken taken gone)
  · exact Or.inr ⟨between, before, after.trans taken, kept⟩

theorem Settled.backward {first : Nodes Bytes Bytes} (settled : Settled env reader root installed nodes later entry)
    (taken : Taken first nodes) : Settled env reader root installed first later entry := by
  obtain gone | ⟨between, before, after, kept⟩ := settled
  · exact Or.inl gone
  · exact Or.inr ⟨between, taken.trans before, after, kept⟩

theorem Unlinks.gone (unlinks : Unlinks env nodes path place) (taken : Taken nodes (Function.update nodes place none))
    (mounted : Mounted env.cwd (Function.update nodes place none)) :
    env.failureAt (Function.update nodes place none) path ≠ none := by
  intro there
  obtain ⟨goal, found⟩ := failureAt_eq_none_iff.1 there
  obtain ⟨named, present⟩ := namedPlace_of_found found
  have before := namedPlace_taken taken present
  rw [unlinks.named, Walk.found.injEq] at before
  subst before
  rw [FileEnv.namedPlace] at present
  split at present
  · cases present
  · obtain ⟨⟨node, inside⟩, -⟩ : Walk.Lands (Function.update nodes place none) false (.found place) :=
      present ▸ walk_lands mounted.rooted (FileEnv.start_directory mounted path)
    rw [Function.update_self] at inside
    cases inside

theorem removeArtifact_takes : Taken disk.nodes (removeArtifact env stuck entry disk).1.nodes := by
  obtain ⟨same, -⟩ | ⟨place, -, -, removed⟩ := @removeArtifact_cases env disk stuck entry
  · rw [same]
    exact Taken.refl _
  · rw [removed]
    intro location
    by_cases here : location = place
    · exact Or.inr (here ▸ Function.update_self ..)
    · exact Or.inl (Function.update_of_ne here ..)

theorem removeArtifacts_takes :
    Taken disk.nodes (removeArtifacts env reader root installed stuck entries disk).1.nodes := by
  induction entries generalizing disk with
  | nil => exact Taken.refl _
  | cons entry entries ih =>
      rw [removeArtifacts]
      split
      · exact ih
      · split
        · exact Taken.refl _
        · exact ih
        · dsimp only
          split
          · exact removeArtifact_takes.trans ih
          · exact removeArtifact_takes

theorem removeArtifact_settles (done : (removeArtifact env stuck entry disk).2 = true)
    (mounted : Mounted env.cwd (removeArtifact env stuck entry disk).1.nodes) :
    Settled env reader root installed disk.nodes (removeArtifact env stuck entry disk).1.nodes entry := by
  have taken : Taken disk.nodes (removeArtifact env stuck entry disk).1.nodes := removeArtifact_takes
  obtain ⟨same, left⟩ | ⟨place, -, unlinks, removed⟩ := @removeArtifact_cases env disk stuck entry
  · rw [same]
    exact (left done).imp_right fun kept => ⟨disk.nodes, Taken.refl _, Taken.refl _, Or.inr kept⟩
  · rw [removed] at taken mounted ⊢
    exact Or.inl (unlinks.gone taken mounted)

theorem removeArtifacts_complete (spares : Spares env reader root top state listed installed manifest nodes disk.nodes)
    (represents : Represents env reader root top nodes state) (straight : Straight root top) (listsNames : env.ListsNames)
    (lists : ∀ later, Taken nodes later → env.Lists later) (past : LeadsPast env top nodes manifest)
    (found : RqpStateStore.listInstalled env reader nodes root = .ok listed) (members : ∀ entry ∈ entries, entry ∈ manifest)
    (done : (removeArtifacts env reader root installed stuck entries disk).2 = .ok true) :
    ∀ entry ∈ entries, entry.path ≠ [] → Settled env reader root installed disk.nodes
      (removeArtifacts env reader root installed stuck entries disk).1.nodes entry := by
  induction entries generalizing disk with
  | nil => exact nofun
  | cons first entries ih =>
      rw [List.forall_mem_cons] at members
      rw [removeArtifacts] at done ⊢
      split at done
      · next empty =>
          rw [if_pos empty]
          rintro entry (_ | ⟨_, member⟩) filled
          · exact absurd (List.isEmpty_iff.1 empty) filled
          · exact ih spares members.2 done entry member filled
      · next named =>
          rw [if_neg named]
          split at done
          · cases done
          · next needed =>
              rintro entry (_ | ⟨_, member⟩) filled
              · exact Or.inr ⟨disk.nodes, Taken.refl _, removeArtifacts_takes, Or.inl needed⟩
              · exact ih spares members.2 done entry member filled
          · next needless =>
              dsimp only at done ⊢
              split at done
              · next removed =>
                  have step : Spares env reader root top state listed installed manifest nodes (removeArtifact env stuck first disk).1.nodes :=
                    removeArtifact_spares spares represents straight listsNames lists past found members.1 needless
                  rw [if_pos removed]
                  rintro entry (_ | ⟨_, member⟩) filled
                  · exact (removeArtifact_settles removed step.represents.enclosure.mountedWhole).onward removeArtifacts_takes
                  · exact (ih step members.2 done entry member filled).backward removeArtifact_takes
              · cases done

end Gone

/-! ## `removeInstalledPackage` -/

section Removing

variable (env : FileEnv) (reader : StateReader) (root : Bytes)

/-- `runInstalledHook`; what a hook does is up to its script. -/
def RqpPlugin.runInstalledHook (hookKey : Bytes) (script : Bytes → PayloadDisk → PayloadDisk × Except Bytes Bool) (installed : LoadedState)
    (disk : PayloadDisk) : PayloadDisk × Except Bytes Bool :=
  match installed.hooks.lookup hookKey with
  | none => (disk, .ok true)
  | some file =>
      if (env.read disk.nodes (joinPath installed.stateDir file)).isSome then script file disk else (disk, .ok false)

/-- A step that throws or is refused ends the removal. -/
def ifDone (first : PayloadDisk × Except Bytes Bool) (next : PayloadDisk → PayloadDisk × Except Bytes Bool) :
    PayloadDisk × Except Bytes Bool :=
  match first.2 with
  | .ok true => next first.1
  | _ => first

def RqpPlugin.removeInstalledPackage (script : Bytes → PayloadDisk → PayloadDisk × Except Bytes Bool) (stuck : List (Location Bytes))
    (installed : LoadedState) (disk : PayloadDisk) : PayloadDisk × Except Bytes Bool :=
  ifDone (ifDone (RqpPlugin.runInstalledHook env (bytes "remove") script installed disk)
    (removeManifestArtifacts env reader root installed stuck)) fun disk =>
      let removed := RqpStateStore.removeInstalledState env stuck installed disk
      (removed.1, .ok removed.2)

end Removing

/-! ### One removal -/

/-- What the removal of a package leaves of the others. -/
structure UninstallEffect (env : FileEnv) (reader : StateReader) (root : Bytes) (top : Location Bytes) (listed : List LoadedState)
    (installed : LoadedState) (manifest : List ManifestEntry) (nodes later : Nodes Bytes Bytes) : Prop where
  taken : Taken nodes later
  states : ∀ directory, DirectoryNames directory → ∀ other, InPlace root directory other →
    pathOf other.stateDir ≠ pathOf installed.stateDir → ∀ name,
      later (name :: stateHome top directory) = nodes (name :: stateHome top directory)
  shared : ∀ place, Shared env reader nodes listed installed place → ¬ top <:+ place → later place = nodes place
  named : ∀ location, later location = nodes location ∨ StrictlyBelow top location ∨
    ∃ entry ∈ manifest, env.namedPlace nodes entry.path = .found location

section Uninstalling

variable {env : FileEnv} {reader : StateReader} {root : Bytes} {top : Location Bytes} {disk : PayloadDisk}
variable {nodes later : Nodes Bytes Bytes} {state : RqpState} {listed : List LoadedState} {installed other : LoadedState}
variable {stuck : List (Location Bytes)} {manifest : List ManifestEntry}
variable {script : Bytes → PayloadDisk → PayloadDisk × Except Bytes Bool}

theorem removeAll_takes {path : Bytes} : Taken disk.nodes (env.removeAll stuck path disk).1.nodes := by
  rw [FileEnv.removeAll]
  split
  · exact removeTree_taken
  · exact Taken.refl _

theorem removeInstalledState_takes : Taken disk.nodes (RqpStateStore.removeInstalledState env stuck installed disk).1.nodes := by
  have first : Taken disk.nodes (env.removeAll stuck installed.stateDir disk).1.nodes := removeAll_takes
  rw [RqpStateStore.removeInstalledState, Outcome.andThen]
  split
  · dsimp only
    split
    · exact first
    · split
      · exact first
      · exact first
      · rw [FileEnv.remove]
        split
        · exact first.trans removeNode_takes
        · exact first
  · exact first

theorem Spares.uninstallEffect (spares : Spares env reader root top state listed installed manifest nodes later) :
    UninstallEffect env reader root top listed installed manifest nodes later where
  taken := spares.taken
  states directory _ _ _ _ name := spares.within _ ⟨[name, directory.2, directory.1], rfl⟩
  shared place shared _ := spares.shared place shared
  named location := (spares.named location).imp_right Or.inr

theorem removeInstalledPackage_effect (represents : Represents env reader root top disk.nodes state) (straight : Straight root top)
    (listsNames : env.ListsNames) (lists : ∀ later, Taken disk.nodes later → env.Lists later)
    (found : RqpStateStore.listInstalled env reader disk.nodes root = .ok listed) (member : installed ∈ listed)
    (hookless : installed.hooks.lookup (bytes "remove") = none)
    (read : readManifest env reader disk.nodes installed = .ok manifest) (past : LeadsPast env top disk.nodes manifest)
    {removed : PayloadDisk × Except Bytes Bool}
    (result : RqpPlugin.removeInstalledPackage env reader root script stuck installed disk = removed) :
    (∃ next, StateStep state (.remove installed.package) (decide (removed.2 = .ok true)) next ∧
      Represents env reader root top removed.1.nodes next) ∧
      UninstallEffect env reader root top listed installed manifest disk.nodes removed.1.nodes := by
  subst result
  have spares : Spares env reader root top state listed installed manifest disk.nodes
      (removeManifestArtifacts env reader root installed stuck disk).1.nodes :=
    removeManifestArtifacts_spares represents straight listsNames lists found read past
  have hooked : RqpPlugin.runInstalledHook env (bytes "remove") script installed disk = (disk, .ok true) := by
    rw [RqpPlugin.runInstalledHook, hookless]
  have begun : ifDone (disk, Except.ok true) (removeManifestArtifacts env reader root installed stuck) =
      removeManifestArtifacts env reader root installed stuck disk := rfl
  rw [RqpPlugin.removeInstalledPackage, hooked, begun, ifDone]
  split
  · next done =>
      set middle := (removeManifestArtifacts env reader root installed stuck disk).1
      have same : ∀ directory name, middle.nodes (name :: stateHome top directory) = disk.nodes (name :: stateHome top directory) :=
        fun directory name => spares.within _ ⟨[name, directory.2, directory.1], rfl⟩
      obtain ⟨⟨again, listedAgain, memberAgain⟩, -⟩ :=
        listed_again represents spares.represents listsNames found member fun directory _ _ name => same directory name
      have meanwhile : env.Lists (env.removeAll stuck installed.stateDir middle).1.nodes :=
        lists _ (spares.taken.trans removeAll_takes)
      obtain ⟨next, step, after, changes⟩ := remove_refines spares.represents listsNames listedAgain memberAgain meanwhile
        (lists _ (spares.taken.trans removeInstalledState_takes))
      obtain ⟨_, here, -, placed⟩ := listInstalled_represents represents listsNames
      cases Except.ok.inj (here.symm.trans found)
      obtain ⟨directory, names, inPlace, -⟩ := placed installed member
      have effect : RemoveEffect top (directory.1 :: top) (stateHome top directory) middle
          (RqpStateStore.removeInstalledState env stuck installed middle) :=
        removeInstalledState_effect spares.represents.enclosure names.first names.second inPlace.path meanwhile
      have answer : ∀ removed : Bool, decide ((Except.ok removed : Except Bytes Bool) = .ok true) = removed := by decide
      dsimp only
      rw [answer]
      refine ⟨⟨next, step, after⟩, spares.taken.trans removeInstalledState_takes, fun other _ twin otherPlace apart name => ?_,
        fun place shared past => ?_, fun location => ?_⟩
      · have different : other ≠ directory := by
          rintro rfl
          rw [inPlace.path, otherPlace.path] at apart
          exact apart rfl
        rw [effect.beside _ (not_below_home different name).2, same other name]
        intro above
        have longer := congrArg List.length above
        simp only [stateHome, List.length_cons] at longer
        omega
      · rw [changes.outside place fun below => past below.1, spares.shared place shared]
      · by_cases below : StrictlyBelow top location
        · exact Or.inr (Or.inl below)
        · rw [changes.outside location below]
          exact (spares.named location).imp_right Or.inr
  · next refused =>
      refine ⟨⟨state, ?_, spares.represents⟩, spares.uninstallEffect⟩
      have failed : decide ((removeManifestArtifacts env reader root installed stuck disk).2 = .ok true) = false :=
        decide_eq_false refused
      rw [failed]
      exact StateStep.kept state _

end Uninstalling

/-! ## Runs -/

/-- Installed packages are removed one after another, each with its answer; what a hook would do is not needed, since
none of them has one. -/
inductive UninstallRun (env : FileEnv) (reader : StateReader) (root : Bytes) (disk : PayloadDisk) :
    List (LoadedState × Bool) → PayloadDisk → Prop
  | start : UninstallRun env reader root disk [] disk
  | step {calls : List (LoadedState × Bool)} {middle : PayloadDisk} {listed : List LoadedState} {installed : LoadedState}
      {script : Bytes → PayloadDisk → PayloadDisk × Except Bytes Bool} {stuck : List (Location Bytes)}
      (run : UninstallRun env reader root disk calls middle)
      (found : RqpStateStore.listInstalled env reader middle.nodes root = .ok listed) (member : installed ∈ listed) :
      UninstallRun env reader root disk
        (calls ++ [(installed,
          decide ((RqpPlugin.removeInstalledPackage env reader root script stuck installed middle).2 = .ok true))])
        (RqpPlugin.removeInstalledPackage env reader root script stuck installed middle).1

/-- No listed package has a remove hook, and none of their manifests leads into the state root. -/
structure Uninstallable (env : FileEnv) (reader : StateReader) (top : Location Bytes) (nodes : Nodes Bytes Bytes)
    (listed : List LoadedState) : Prop where
  hookless : ∀ installed ∈ listed, installed.hooks.lookup (bytes "remove") = none
  past : ∀ installed ∈ listed, ∀ manifest, readManifest env reader nodes installed = .ok manifest →
    LeadsPast env top nodes manifest

/-- What a run leaves. -/
structure RunEffect (env : FileEnv) (reader : StateReader) (root : Bytes) (top : Location Bytes) (listed : List LoadedState)
    (calls : List (LoadedState × Bool)) (nodes later : Nodes Bytes Bytes) : Prop where
  taken : Taken nodes later
  states : ∀ directory, DirectoryNames directory → ∀ other, InPlace root directory other →
    (∀ call ∈ calls, pathOf other.stateDir ≠ pathOf call.1.stateDir) → ∀ name,
      later (name :: stateHome top directory) = nodes (name :: stateHome top directory)
  shared : ∀ place, (∃ other ∈ listed, (∀ call ∈ calls, pathOf other.stateDir ≠ pathOf call.1.stateDir) ∧
    ∃ manifest, readManifest env reader nodes other = .ok manifest ∧ ∃ entry ∈ manifest, Straight entry.path place) →
      ¬ top <:+ place → later place = nodes place
  named : ∀ location, later location = nodes location ∨ StrictlyBelow top location ∨
    ∃ call ∈ calls, ∃ manifest, readManifest env reader nodes call.1 = .ok manifest ∧
      ∃ entry ∈ manifest, env.namedPlace nodes entry.path = .found location

section Runs

variable {env : FileEnv} {reader : StateReader} {root : Bytes} {top : Location Bytes} {disk after : PayloadDisk}
variable {nodes later : Nodes Bytes Bytes} {state next : RqpState} {listed again : List LoadedState} {installed : LoadedState}
variable {calls : List (LoadedState × Bool)} {manifest : List ManifestEntry}

theorem listed_before (represents : Represents env reader root top nodes state) (after : Represents env reader root top later next)
    (listsNames : env.ListsNames) (taken : Taken nodes later)
    (found : RqpStateStore.listInstalled env reader nodes root = .ok listed)
    (foundAgain : RqpStateStore.listInstalled env reader later root = .ok again) (member : installed ∈ again) :
    installed ∈ listed ∧ readManifest env reader later installed = readManifest env reader nodes installed := by
  obtain ⟨_, there, -, placed⟩ := listInstalled_represents after listsNames
  cases Except.ok.inj (there.symm.trans foundAgain)
  obtain ⟨directory, names, inPlace, reload⟩ := placed installed member
  have loaded := loadInstalled_taken represents.enclosure after.enclosure names (fun _ _ => taken.present) reload
  refine ⟨mem_listed represents listsNames found names inPlace.named loaded, ?_⟩
  rw [loadInstalled_eq after.enclosure names] at reload
  unfold RqpStateStore.loadFiles at reload
  split at reload
  · next _ _ manifest =>
      have kept := fileAt_eq_some.2 (taken.present (fileAt_eq_some.1 manifest))
      exact readManifest_congr represents.enclosure after.enclosure names inPlace (manifest.trans kept.symm)
  · cases reload

theorem readManifest_listed (represents : Represents env reader root top nodes state) (listsNames : env.ListsNames)
    (found : RqpStateStore.listInstalled env reader nodes root = .ok listed) (member : installed ∈ listed) :
    ∃ manifest, readManifest env reader nodes installed = .ok manifest := by
  obtain ⟨_, here, -, placed⟩ := listInstalled_represents represents listsNames
  cases Except.ok.inj (here.symm.trans found)
  obtain ⟨directory, names, inPlace, loaded⟩ := placed installed member
  rw [loadInstalled_eq represents.enclosure names] at loaded
  unfold RqpStateStore.loadFiles at loaded
  split at loaded
  · next _ _ content =>
      rw [readManifest, FileEnv.readTextFile, read_manifestPath represents.enclosure names inPlace, content]
      exact ⟨_, rfl⟩
  · cases loaded

theorem leadsPast_taken (past : LeadsPast env top nodes manifest) (taken : Taken nodes later) : LeadsPast env top later manifest :=
  fun entry member place named => past entry member place (namedPlace_taken taken named)

theorem uninstallRun_effect (represents : Represents env reader root top disk.nodes state) (straight : Straight root top)
    (listsNames : env.ListsNames) (lists : ∀ later, Taken disk.nodes later → env.Lists later)
    (found : RqpStateStore.listInstalled env reader disk.nodes root = .ok listed)
    (ready : Uninstallable env reader top disk.nodes listed) (run : UninstallRun env reader root disk calls after) :
    (∃ next, StateRun state (calls.map fun call => (.remove call.1.package, call.2)) next ∧
      Represents env reader root top after.nodes next) ∧
      RunEffect env reader root top listed calls disk.nodes after.nodes := by
  induction run with
  | start =>
      exact ⟨⟨state, StateRun.start, represents⟩, Taken.refl _, fun _ _ _ _ _ _ => rfl, fun _ _ _ => rfl, fun _ => Or.inl rfl⟩
  | @step calls middle again installed script stuck run foundAgain member ih =>
      obtain ⟨⟨next, stateRun, reached⟩, effect⟩ := ih
      obtain ⟨inside, manifestAgain⟩ := listed_before represents reached listsNames effect.taken found foundAgain member
      obtain ⟨manifest, read⟩ := readManifest_listed reached listsNames foundAgain member
      have listsOn : ∀ later, Taken middle.nodes later → env.Lists later := fun later taken => lists later (effect.taken.trans taken)
      have past := leadsPast_taken (ready.past installed inside manifest (manifestAgain.symm.trans read)) effect.taken
      obtain ⟨⟨final, step, ended⟩, single⟩ := removeInstalledPackage_effect reached straight listsNames listsOn
        foundAgain member (ready.hookless installed inside) read past rfl
      refine ⟨⟨final, ?_, ended⟩, effect.taken.trans single.taken, ?_, ?_, ?_⟩
      · rw [List.map_append]
        exact stateRun.step step
      · intro directory names other inPlace apart name
        rw [List.forall_mem_append, List.forall_mem_singleton] at apart
        rw [single.states directory names other inPlace apart.2 name, effect.states directory names other inPlace apart.1 name]
      · rintro place ⟨other, memberOther, apart, shared⟩ beside
        rw [List.forall_mem_append, List.forall_mem_singleton] at apart
        have kept := effect.shared place ⟨other, memberOther, apart.1, shared⟩ beside
        obtain ⟨manifest, readOther, entry, memberEntry, straightEntry⟩ := shared
        obtain ⟨⟨_, listedOther, twin⟩, same⟩ := listed_again represents reached listsNames found memberOther
          fun directory names inPlace name => effect.states directory names other inPlace apart.1 name
        cases Except.ok.inj (listedOther.symm.trans foundAgain)
        rw [← kept]
        exact single.shared place ⟨other, twin, apart.2, manifest, same.trans readOther, entry, memberEntry, straightEntry⟩ beside
      · intro location
        obtain same | below | ⟨entry, memberEntry, named⟩ := single.named location
        · rw [same]
          refine (effect.named location).imp_right (Or.imp_right ?_)
          rintro ⟨call, memberCall, listedBy⟩
          exact ⟨call, List.mem_append_left _ memberCall, listedBy⟩
        · exact Or.inr (Or.inl below)
        · refine Or.inr (Or.inr ⟨_, List.mem_append_right _ (List.mem_singleton.2 rfl), manifest, ?_, entry, memberEntry, ?_⟩)
          · exact manifestAgain.symm.trans read
          · exact namedPlace_taken effect.taken named

end Runs

instance {env : FileEnv} {top : Location Bytes} {nodes : Nodes Bytes Bytes} {manifest : List ManifestEntry} :
    Decidable (LeadsPast env top nodes manifest) :=
  decidable_of_iff (∀ entry ∈ manifest, (match env.namedPlace nodes entry.path with
    | .found place => decide (¬ top <:+ place ∧ place ≠ env.cwd)
    | _ => true) = true) <| by
    refine forall₂_congr fun entry _ => ?_
    cases env.namedPlace nodes entry.path with
    | found place => simp
    | missing directory name => simp
    | failed => simp

/-! ## Two packages that share a file -/

def toolMetadata : RqMetadata := { richMetadata [] with name := bytes "tool" }

def toolSource : RqStateSource := ⟨bytes "local-file", bytes "tool.rqp", [], []⟩

/-- The alias is a link to a file of its own. -/
def richManifest : List ManifestEntry :=
  [⟨bytes "dir", bytes "/opt"⟩, ⟨bytes "file", bytes "/opt/data"⟩, ⟨bytes "file", bytes "/opt/own"⟩,
    ⟨bytes "symlink", bytes "/opt/./alias"⟩]

def toolManifest : List ManifestEntry := [⟨bytes "file", bytes "/opt/data"⟩]

def artifactTree (text : Bytes) : Option Ptree :=
  if text = rqMetadataJson id (richMetadata []) then some (metadataDocument (richMetadata [])).tree
  else if text = rqMetadataJson id toolMetadata then some (metadataDocument toolMetadata).tree
  else if text = bytes "rich source" then some (sourceDocument storeSource (bytes "rich@1.0-1+r0")).tree
  else if text = bytes "tool source" then some (sourceDocument toolSource (bytes "tool@1.0-1+r0")).tree
  else if text = bytes "rich manifest" then some (manifestDocument richManifest).tree
  else if text = bytes "tool manifest" then some (manifestDocument toolManifest).tree
  else none

def artifactReader : StateReader := ⟨⟨artifactTree, id⟩, fun _ => .ok [(bytes "install", bytes "reqpack.lua")]⟩

def artifactNames : List Bytes :=
  [bytes "state", bytes "rich", bytes "rich@1.0-1+r0", bytes "tool", bytes "tool@1.0-1+r0", bytes "metadata.json",
    bytes "reqpack.lua", bytes "source.json", bytes "manifest.json", bytes "opt", bytes "data", bytes "own", bytes "alias"]

def artifactEnv : FileEnv := namesEnv artifactNames

def richHome : Location Bytes := [bytes "rich@1.0-1+r0", bytes "rich", bytes "state"]

def toolHome : Location Bytes := [bytes "tool@1.0-1+r0", bytes "tool", bytes "state"]

def artifactNodes : List (Location Bytes × Node Bytes Bytes) :=
  [([], .directory), ([bytes "state"], .directory), ([bytes "rich", bytes "state"], .directory), (richHome, .directory),
    (bytes "metadata.json" :: richHome, .file (rqMetadataJson id (richMetadata []))),
    (bytes "reqpack.lua" :: richHome, .file (bytes "return")), (bytes "source.json" :: richHome, .file (bytes "rich source")),
    (bytes "manifest.json" :: richHome, .file (bytes "rich manifest")), ([bytes "tool", bytes "state"], .directory),
    (toolHome, .directory), (bytes "metadata.json" :: toolHome, .file (rqMetadataJson id toolMetadata)),
    (bytes "reqpack.lua" :: toolHome, .file (bytes "return")), (bytes "source.json" :: toolHome, .file (bytes "tool source")),
    (bytes "manifest.json" :: toolHome, .file (bytes "tool manifest")), ([bytes "opt"], .directory),
    ([bytes "data", bytes "opt"], .file (bytes "data")), ([bytes "own", bytes "opt"], .file (bytes "own")),
    ([bytes "alias", bytes "opt"], .link false [.name (bytes "own")])]

def artifactDisk : PayloadDisk := ⟨ofEntries artifactNodes, []⟩

def richLoaded : LoadedState :=
  ⟨richMetadata [], storeSource, bytes "rich@1.0-1+r0", [(bytes "install", bytes "reqpack.lua")], bytes "rich@1.0-1+r0",
    bytes "/state/rich/rich@1.0-1+r0"⟩

def toolLoaded : LoadedState :=
  ⟨toolMetadata, toolSource, bytes "tool@1.0-1+r0", [(bytes "install", bytes "reqpack.lua")], bytes "tool@1.0-1+r0",
    bytes "/state/tool/tool@1.0-1+r0"⟩

def artifactState : RqpState where
  installed := [richLoaded.package, toolLoaded.package]
  apart := by decide

theorem artifactEnv_listsNames : artifactEnv.ListsNames := namesEnv_listsNames (by decide)

theorem mem_artifactNodes {location : Location Bytes} {node : Node Bytes Bytes}
    (present : artifactDisk.nodes location = some node) : (location, node) ∈ artifactNodes := mem_of_ofEntries present

theorem artifactNodes_known {name : Bytes} {location : Location Bytes} {node : Node Bytes Bytes}
    (present : artifactDisk.nodes (name :: location) = some node) : name ∈ artifactNames := by
  have named : ∀ entry ∈ artifactNodes, ∀ name ∈ entry.1.head?, name ∈ artifactNames := by decide
  exact named _ (mem_artifactNodes present) name rfl

theorem artifactEnv_lists {later : Nodes Bytes Bytes} (taken : Taken artifactDisk.nodes later) : artifactEnv.Lists later :=
  namesEnv_lists (by decide) fun _ _ _ present => artifactNodes_known (taken.present present)

theorem artifactRoot : Enclosure artifactEnv (bytes "/state") [bytes "state"] artifactDisk.nodes :=
  namesEnv_enclosure (by decide) (by decide) (ofEntries_mounted (by decide) (by decide) (by decide)) (by decide +kernel) (by decide)
    (by decide)

theorem artifacts_placed : ∀ installed ∈ [richLoaded, toolLoaded], DirectoryNames (stateDir installed.package.metadata) ∧
    RqpStateStore.loadInstalled artifactEnv artifactReader artifactDisk.nodes
      (statePath (bytes "/state") (stateDir installed.package.metadata)) = .ok (some installed) := by
  have plain : ∀ installed ∈ [richLoaded, toolLoaded], ∀ name ∈
      [(stateDir installed.package.metadata).1, (stateDir installed.package.metadata).2],
      isDirectoryName name = true ∧ name.contains 0 = false := by decide
  have loads : ∀ installed ∈ [richLoaded, toolLoaded], RqpStateStore.loadInstalled artifactEnv artifactReader artifactDisk.nodes
      (statePath (bytes "/state") (stateDir installed.package.metadata)) = .ok (some installed) := by decide +kernel
  intro installed member
  obtain ⟨first, second⟩ := List.forall_mem_cons.1 (plain installed member)
  rw [List.forall_mem_singleton] at second
  exact ⟨⟨fileName_of_text first.1 first.2, fileName_of_text second.1 second.2⟩, loads installed member⟩

theorem artifacts_only (directory : Bytes × Bytes) (name content : Bytes)
    (present : artifactDisk.nodes (name :: stateHome [bytes "state"] directory) = some (.file content)) :
    ∃ installed ∈ [richLoaded, toolLoaded], stateDir installed.package.metadata = directory := by
  have homes : ∀ entry ∈ artifactNodes, entry.1.length = 4 → ∃ installed ∈ [richLoaded, toolLoaded],
      entry.1.tail = stateHome [bytes "state"] (stateDir installed.package.metadata) := by decide
  obtain ⟨installed, member, same⟩ := homes _ (mem_artifactNodes present) rfl
  rw [List.tail_cons, stateHome, stateHome, List.cons.injEq, List.cons.injEq] at same
  exact ⟨installed, member, Prod.ext same.2.1.symm same.1.symm⟩

theorem artifactState_represents :
    Represents artifactEnv artifactReader (bytes "/state") [bytes "state"] artifactDisk.nodes artifactState :=
  represents_of_loaded [richLoaded, toolLoaded] artifactRoot (artifactEnv_lists (Taken.refl _)) (fun _ => Iff.rfl) artifacts_placed
    artifacts_only

theorem artifactRoot_straight : Straight (bytes "/state") [bytes "state"] where
  start := iff_of_true (by decide) (by decide)
  parts := by decide
  closed := by decide
  whole := by decide

theorem richManifest_read : readManifest artifactEnv artifactReader artifactDisk.nodes richLoaded = .ok richManifest := by decide +kernel

theorem toolManifest_read : readManifest artifactEnv artifactReader artifactDisk.nodes toolLoaded = .ok toolManifest := by decide +kernel

theorem artifacts_listed {listed : List LoadedState}
    (found : RqpStateStore.listInstalled artifactEnv artifactReader artifactDisk.nodes (bytes "/state") = .ok listed)
    (installed : LoadedState) : installed ∈ listed ↔ installed ∈ [richLoaded, toolLoaded] := by
  apply Iff.intro
  · intro member
    obtain ⟨_, here, -, placed⟩ := listInstalled_represents artifactState_represents artifactEnv_listsNames
    cases Except.ok.inj (here.symm.trans found)
    obtain ⟨directory, names, -, read⟩ := placed installed member
    exact (mem_loaded artifactRoot artifacts_placed artifacts_only names read).1
  · intro member
    obtain ⟨names, read⟩ := artifacts_placed installed member
    exact mem_listed artifactState_represents artifactEnv_listsNames found names rfl read

theorem artifacts_uninstallable {listed : List LoadedState}
    (found : RqpStateStore.listInstalled artifactEnv artifactReader artifactDisk.nodes (bytes "/state") = .ok listed) :
    Uninstallable artifactEnv artifactReader [bytes "state"] artifactDisk.nodes listed where
  hookless installed member := by
    have none : ∀ installed ∈ [richLoaded, toolLoaded], installed.hooks.lookup (bytes "remove") = none := by decide
    exact none installed ((artifacts_listed found installed).1 member)
  past installed member manifest read := by
    have past : ∀ manifest ∈ [richManifest, toolManifest], LeadsPast artifactEnv [bytes "state"] artifactDisk.nodes manifest := by
      decide +kernel
    obtain rfl | same := List.mem_cons.1 ((artifacts_listed found installed).1 member)
    · rw [richManifest_read] at read
      exact past manifest (by rw [← Except.ok.inj read]; simp)
    · rw [List.mem_singleton.1 same, toolManifest_read] at read
      exact past manifest (by rw [← Except.ok.inj read]; simp)

/-- The removal of one of them. -/
def richRemoved : PayloadDisk × Except Bytes Bool :=
  RqpPlugin.removeInstalledPackage artifactEnv artifactReader (bytes "/state") (fun _ disk => (disk, .ok true)) [] richLoaded
    artifactDisk

theorem richRemoved_eq : RqpPlugin.removeInstalledPackage artifactEnv artifactReader (bytes "/state")
    (fun _ disk => (disk, .ok true)) [] richLoaded artifactDisk = richRemoved := by rw [richRemoved]

end ReqPack.Rqp
