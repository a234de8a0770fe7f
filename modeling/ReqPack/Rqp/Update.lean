import ReqPack.Rqp.StateStore

/-! # Updating RQP packages

`RqpPlugin::update` removes an installed package and installs the candidate of the
repositories in its place.  Nothing brings the removed package back when the second half
fails.
-/

namespace ReqPack.Rqp

open ReqPack.Data
open ReqPack.Data.Ascii

/-- A step that may fail, or throw past the update. -/
inductive Attempt
  | ok
  | fails
  | throws
deriving DecidableEq, Repr

/-- What becomes of a state directory: it is removed, it is gone or cannot be loaded any more
although its removal is reported as failed, or it is kept. -/
inductive StateRemoval
  | removed
  | lost
  | kept
deriving DecidableEq, Repr

inductive Download
  | throws
  | fails
  /-- the text of the file, if it can be opened -/
  | found (content : Option Bytes)
deriving DecidableEq, Repr

/-- A state that cannot be persisted leaves nothing that can be loaded, and may leave what
was in its directory unreadable. -/
inductive Persist
  | written
  | fails (damages : Bool)
deriving DecidableEq, Repr

/-- How the steps of one request turn out. -/
structure UpdateOutcome where
  indexesLoaded : Bool := true
  removeHook : Attempt := .ok
  removeArtifacts : Attempt := .ok
  removeState : StateRemoval := .removed
  artifact : Download := .found (some [])
  /-- the package found in the artifact, unless loading it throws -/
  layout : Option RqPackageId
  installHook : Bool := true
  persist : Persist := .written
deriving DecidableEq, Repr

structure UpdateRequest where
  name : Bytes
  version : Bytes := []
deriving DecidableEq, Repr

/-- What an update returns, unless it throws; the state it leaves; and the packages with a
newer candidate that it found on its way. -/
structure UpdateRun where
  returned : Option Bool
  state : RqpState
  newer : List RqRepositoryPackage

variable (host : RqpHost)

/-- `removeInstalledPackage`. -/
def removeInstalledPackage (outcome : UpdateOutcome) (installed : RqpInstalledPackage) (state : RqpState) :
    Option Bool × RqpState :=
  match outcome.removeHook with
  | .throws => (none, state)
  | .fails => (some false, state)
  | .ok =>
      match outcome.removeArtifacts with
      | .throws => (none, state)
      | .fails => (some false, state)
      | .ok =>
          match outcome.removeState with
          | .removed => (some true, state.without (stateDir installed.metadata))
          | .lost => (some false, state.without (stateDir installed.metadata))
          | .kept => (some false, state)

/-- `installPackagePath`; whatever is thrown in it is caught. -/
def installPackagePath (outcome : UpdateOutcome) (source : RqStateSource) (state : RqpState) : Bool × RqpState :=
  match outcome.layout with
  | none => (false, state)
  | some package =>
      if !outcome.installHook then (false, state)
      else
        match outcome.persist with
        | .written => (true, state.write { metadata := package, source := source })
        | .fails damages => (false, if damages then state.without (stateDir package) else state)

/-- The download and the check of its hash. -/
def fetchArtifact (outcome : UpdateOutcome) (candidate : RqRepositoryPackage) : Attempt :=
  match outcome.artifact with
  | .throws => .throws
  | .fails => .fails
  | .found content =>
      if candidate.packageSha256.isEmpty then .ok
      else
        match content with
        | none => .throws
        | some artifact => if host.sha256Hex artifact = candidate.packageSha256 then .ok else .fails

/-- The entry that is written for a package of a repository. -/
def repositorySource (candidate : RqRepositoryPackage) (requestName : Bytes) : RqStateSource where
  source := bytes "repository"
  path := candidate.name ++ bytes "@" ++ candidate.version
  repository := candidate.repository
  requestName := requestName

/-- `installResolvedPackage`. -/
def installResolvedPackage (outcome : UpdateOutcome) (name version : Bytes) (candidate : RqRepositoryPackage)
    (state : RqpState) : Option Bool × RqpState :=
  if !(findInstalled state name version).isEmpty then (some true, state)
  else
    match fetchArtifact host outcome candidate with
    | .throws => (none, state)
    | .fails => (some false, state)
    | .ok =>
        let result := installPackagePath outcome (repositorySource candidate name) state
        (some result.1, result.2)

/-- The package of a request and its candidate, if the candidate is newer. -/
def newerCandidate (installed : RqpInstalledPackage) : Option RqRepositoryPackage :=
  (resolvePackage host installed.metadata.name []).filter fun candidate =>
    repositoryCandidateIsNewer host installed candidate

/-- The removal of an installed package and the installation of its candidate. -/
def replaceInstalled (outcome : UpdateOutcome) (installed : RqpInstalledPackage) (candidate : RqRepositoryPackage)
    (state : RqpState) : UpdateRun :=
  match removeInstalledPackage outcome installed state with
  | (some true, left) =>
      let result := installResolvedPackage host outcome installed.metadata.name installed.metadata.version
        candidate left
      ⟨result.1, result.2, [candidate]⟩
  | (returned, left) => ⟨returned, left, [candidate]⟩

/-- The body of the loop of `update`. -/
def updateOne (outcome : UpdateOutcome) (request : UpdateRequest) (state : RqpState) : UpdateRun :=
  match findInstalled state request.name request.version with
  | [] => ⟨some true, state, []⟩
  | installed :: others =>
      if request.version.isEmpty && !others.isEmpty then ⟨some false, state, []⟩
      else if installed.source.source ≠ bytes "repository" then ⟨some true, state, []⟩
      else if !outcome.indexesLoaded then ⟨none, state, []⟩
      else if host.indexes.isEmpty then ⟨some true, state, []⟩
      else
        match newerCandidate host installed with
        | none => ⟨some true, state, []⟩
        | some candidate => replaceInstalled host outcome installed candidate state

/-- `RqpPlugin::update`. -/
def update : List (UpdateRequest × UpdateOutcome) → RqpState → UpdateRun
  | [], state => ⟨some true, state, []⟩
  | (request, outcome) :: rest, state =>
      let first := updateOne host outcome request state
      match first.returned with
      | none => first
      | some updated =>
          let others := update rest first.state
          ⟨others.returned.map fun all => updated && all, others.state, first.newer ++ others.newer⟩

/-! ## When a package may be removed -/

/-- A package is installed in the same version or a newer one. -/
def StillInstalled (state : RqpState) (package : RqPackageId) : Prop :=
  ∃ found ∈ state.installed, found.metadata.name = package.name ∧ AtLeast host.order found.metadata package

/-- A candidate is installed in its version. -/
def InstalledAs (state : RqpState) (candidate : RqRepositoryPackage) : Prop :=
  ∃ found ∈ state.installed, found.metadata = candidate.packageId

/-- Every package of one state is still installed in another one. -/
def Keeps (before after : RqpState) : Prop :=
  ∀ package ∈ before.installed, StillInstalled host after package.metadata

/-- A request finds an installed package and a newer candidate for it. -/
structure FindsNewer (outcome : UpdateOutcome) (request : UpdateRequest) (state : RqpState)
    (installed : RqpInstalledPackage) (candidate : RqRepositoryPackage) : Prop where
  found : (findInstalled state request.name request.version).head? = some installed
  single : request.version = [] → (findInstalled state request.name request.version).length = 1
  repository : installed.source.source = bytes "repository"
  loaded : outcome.indexesLoaded = true
  newer : newerCandidate host installed = some candidate

/-- The hook, the manifest or the state directory stop the removal. -/
def RemovalStops (outcome : UpdateOutcome) : Prop :=
  outcome.removeHook ≠ .ok ∨ outcome.removeArtifacts ≠ .ok ∨ outcome.removeState = .kept

/-- The installation over what is left behind a removal ends well with the candidate's
version, or a version at least as new as the removed one is left. -/
def InstallsOver (outcome : UpdateOutcome) (installed : RqpInstalledPackage) (candidate : RqRepositoryPackage)
    (left : RqpState) : Prop :=
  match fetchArtifact host outcome candidate with
  | .throws => True
  | .fails => StillInstalled host left installed.metadata
  | .ok =>
      match outcome.layout, outcome.installHook, outcome.persist with
      | some package, true, .written =>
          ((package = candidate.packageId ∧ isDirectoryName package.name = true ∧
              isDirectoryName (rqPackageIdentity package) = true) ∨ InstalledAs left candidate) ∧
            ∀ other ∈ left.installed, stateDir other.metadata = stateDir package → other.metadata = package
      | some package, true, .fails true =>
          Keeps host left (left.without (stateDir package)) ∧
            StillInstalled host (left.without (stateDir package)) installed.metadata
      | _, _, _ => StillInstalled host left installed.metadata

/-- A package whose newer candidate is found is not lost: it is not removed, a version at
least as new is left, or nothing else that is installed passes for it and the candidate is
installed in its place. -/
def SafeRequest (outcome : UpdateOutcome) (request : UpdateRequest) (state : RqpState) : Prop :=
  ∀ installed candidate, FindsNewer host outcome request state installed candidate →
    RemovalStops outcome ∨
      (outcome.removeState = .lost ∧
        StillInstalled host (state.without (stateDir installed.metadata)) installed.metadata) ∨
      (outcome.removeState = .removed ∧
        if findInstalled (state.without (stateDir installed.metadata)) installed.metadata.name
            installed.metadata.version = []
        then InstallsOver host outcome installed candidate (state.without (stateDir installed.metadata))
        else InstalledAs (state.without (stateDir installed.metadata)) candidate)

/-- Every request of an update that is reached is safe in the state it is reached in. -/
def SafeAlong : List (UpdateRequest × UpdateOutcome) → RqpState → Prop
  | [], _ => True
  | (request, outcome) :: rest, state =>
      SafeRequest host outcome request state ∧
        ((updateOne host outcome request state).returned ≠ none →
          SafeAlong rest (updateOne host outcome request state).state)

/-! ## What one request leaves -/

section Steps

variable {host} {outcome : UpdateOutcome} {request : UpdateRequest} {state : RqpState}
  {installed : RqpInstalledPackage} {candidate : RqRepositoryPackage}

theorem Keeps.refl (state : RqpState) : Keeps host state state :=
  fun package member => ⟨package, member, rfl, atLeast_refl package.metadata⟩

theorem StillInstalled.later {before after : RqpState} {package : RqPackageId}
    (still : StillInstalled host before package) (keeps : Keeps host before after) :
    StillInstalled host after package := by
  obtain ⟨found, member, named, newer⟩ := still
  obtain ⟨other, otherMember, otherNamed, otherNewer⟩ := keeps found member
  exact ⟨other, otherMember, otherNamed.trans named, atLeast_trans otherNewer newer⟩

theorem Keeps.trans {first second third : RqpState} (before : Keeps host first second)
    (behind : Keeps host second third) : Keeps host first third :=
  fun package member => (before package member).later behind

/-- A request leaves the state alone, or it replaces the package it found. -/
theorem updateOne_cases :
    (updateOne host outcome request state).state = state ∧ (updateOne host outcome request state).newer = [] ∨
      ∃ installed candidate, FindsNewer host outcome request state installed candidate ∧
        updateOne host outcome request state = replaceInstalled host outcome installed candidate state := by
  rw [updateOne]
  cases matches_ : findInstalled state request.name request.version with
  | nil => exact Or.inl ⟨rfl, rfl⟩
  | cons installed others =>
      simp only
      by_cases several : (request.version.isEmpty && !others.isEmpty) = true
      · exact Or.inl (by simp [several])
      · rw [if_neg several]
        by_cases elsewhere : installed.source.source ≠ bytes "repository"
        · exact Or.inl (by simp [elsewhere])
        · rw [if_neg elsewhere]
          by_cases unloaded : (!outcome.indexesLoaded) = true
          · exact Or.inl (by simp [unloaded])
          · rw [if_neg unloaded]
            split
            · exact Or.inl ⟨rfl, rfl⟩
            · cases newer : newerCandidate host installed with
              | none => exact Or.inl ⟨rfl, rfl⟩
              | some candidate =>
                  refine Or.inr ⟨installed, candidate, ?_, rfl⟩
                  apply FindsNewer.mk
                  · simp [matches_]
                  · intro open_
                    rw [matches_]
                    simpa [open_] using several
                  · simpa using elsewhere
                  · simpa using unloaded
                  · exact newer

theorem FindsNewer.member (finds : FindsNewer host outcome request state installed candidate) :
    installed ∈ state.installed :=
  (mem_findInstalled.1 (List.mem_of_head? finds.found)).1

/-- The candidate is the one its own name is resolved to, and it is newer. -/
theorem newerCandidate_resolved (newer : newerCandidate host installed = some candidate) :
    candidate.name = installed.metadata.name ∧ resolvePackage host candidate.name [] = some candidate ∧
      repositoryCandidateIsNewer host installed candidate = true := by
  obtain ⟨resolved, later⟩ := Option.filter_eq_some_iff.mp newer
  have named := resolvePackage_name resolved
  exact ⟨named, by rw [named]; exact resolved, later⟩

theorem stillInstalled_of_candidate {after : RqpState} (newer : newerCandidate host installed = some candidate)
    (there : InstalledAs after candidate) : StillInstalled host after installed.metadata := by
  obtain ⟨named, _, later⟩ := newerCandidate_resolved newer
  obtain ⟨found, member, same⟩ := there
  refine ⟨found, member, ?_, ?_⟩
  · rw [same]
    exact named
  · rw [same]
    exact atLeast_of_newer later

/-- What a removal takes away is what it was asked to. -/
theorem keeps_of_without {after : RqpState} {directory : Bytes × Bytes}
    (others : Keeps host (state.without directory) after)
    (removed : ∀ package ∈ state.installed, stateDir package.metadata = directory →
      StillInstalled host after package.metadata) : Keeps host state after := by
  intro package member
  by_cases here : stateDir package.metadata = directory
  · exact removed package member here
  · exact others package (mem_without.2 ⟨member, here⟩)

/-- Two packages in one directory are one. -/
theorem eq_of_stateDir {left right : RqpInstalledPackage} (leftMember : left ∈ state.installed)
    (rightMember : right ∈ state.installed) (same : stateDir left.metadata = stateDir right.metadata) :
    left = right :=
  List.inj_on_of_nodup_map state.apart leftMember rightMember same

/-- A package that covers nothing but itself is written without a loss. -/
theorem keeps_write {written : RqpInstalledPackage}
    (itself : ∀ other ∈ state.installed, stateDir other.metadata = stateDir written.metadata →
      other.metadata = written.metadata) : Keeps host state (state.write written) := by
  intro package member
  by_cases covered : stateDir package.metadata = stateDir written.metadata
  · have same := itself package member covered
    by_cases listed : (isDirectoryName written.metadata.name && isDirectoryName written.identity) = true
    · refine ⟨written, ?_, ?_, ?_⟩
      · simp [RqpState.write, listed]
      · rw [same]
      · rw [same]
        exact atLeast_refl written.metadata
    · rw [RqpState.write, if_neg listed]
      exact Keeps.refl state package member
  · exact ⟨package, mem_write_of_apart member covered, rfl, atLeast_refl package.metadata⟩

theorem installedAs_write {written : RqpInstalledPackage}
    (itself : ∀ other ∈ state.installed, stateDir other.metadata = stateDir written.metadata →
      other.metadata = written.metadata) (there : InstalledAs state candidate) :
    InstalledAs (state.write written) candidate := by
  obtain ⟨found, member, same⟩ := there
  by_cases covered : stateDir found.metadata = stateDir written.metadata
  · by_cases listed : (isDirectoryName written.metadata.name && isDirectoryName written.identity) = true
    · refine ⟨written, by simp [RqpState.write, listed], ?_⟩
      rw [← itself found member covered]
      exact same
    · rw [RqpState.write, if_neg listed]
      exact ⟨found, member, same⟩
  · exact ⟨found, mem_write_of_apart member covered, same⟩

/-- What an installation over a removed package leaves. -/
theorem installPackagePath_safe {left : RqpState} (newer : newerCandidate host installed = some candidate)
    (ready : fetchArtifact host outcome candidate = .ok) (source : RqStateSource)
    (installs : InstallsOver host outcome installed candidate left) :
    Keeps host left (installPackagePath outcome source left).2 ∧
      StillInstalled host (installPackagePath outcome source left).2 installed.metadata ∧
      ((installPackagePath outcome source left).1 = true →
        InstalledAs (installPackagePath outcome source left).2 candidate) := by
  simp only [InstallsOver, ready] at installs
  rw [installPackagePath]
  cases layout : outcome.layout with
  | none =>
      simp only [layout] at installs
      exact ⟨Keeps.refl left, installs, by simp⟩
  | some package =>
      cases hook : outcome.installHook with
      | false =>
          simp only [layout, hook] at installs
          exact ⟨Keeps.refl left, installs, by simp⟩
      | true =>
          cases persisted : outcome.persist with
          | written =>
              simp only [layout, hook, persisted] at installs
              obtain ⟨ends, itself⟩ := installs
              have there : InstalledAs (left.write { metadata := package, source := source }) candidate := by
                rcases ends with ⟨same, named, identified⟩ | before
                · refine ⟨{ metadata := package, source := source }, ?_, same⟩
                  simp [RqpState.write, named, RqpInstalledPackage.identity, identified]
                · exact installedAs_write itself before
              simp only [Bool.not_true, Bool.false_eq_true, if_false]
              exact ⟨keeps_write itself, stillInstalled_of_candidate newer there, fun _ => there⟩
          | fails damages =>
              cases damages with
              | false =>
                  simp only [layout, hook, persisted] at installs
                  exact ⟨Keeps.refl left, installs, by simp⟩
              | true =>
                  simp only [layout, hook, persisted] at installs
                  exact ⟨installs.1, installs.2, by simp⟩

theorem installResolvedPackage_safe {left : RqpState} (newer : newerCandidate host installed = some candidate)
    (safe : if findInstalled left installed.metadata.name installed.metadata.version = []
      then InstallsOver host outcome installed candidate left else InstalledAs left candidate)
    (returns : (installResolvedPackage host outcome installed.metadata.name installed.metadata.version candidate
      left).1 ≠ none) :
    Keeps host left (installResolvedPackage host outcome installed.metadata.name installed.metadata.version
        candidate left).2 ∧
      StillInstalled host (installResolvedPackage host outcome installed.metadata.name
        installed.metadata.version candidate left).2 installed.metadata ∧
      ((installResolvedPackage host outcome installed.metadata.name installed.metadata.version candidate
          left).1 = some true →
        InstalledAs (installResolvedPackage host outcome installed.metadata.name installed.metadata.version
          candidate left).2 candidate) := by
  by_cases passes : findInstalled left installed.metadata.name installed.metadata.version = []
  · rw [if_pos passes] at safe
    simp only [installResolvedPackage, passes, List.isEmpty_nil, Bool.not_true, Bool.false_eq_true,
      if_false] at returns ⊢
    cases ready : fetchArtifact host outcome candidate with
    | throws => simp [ready] at returns
    | fails =>
        simp only [InstallsOver, ready] at safe
        exact ⟨Keeps.refl left, safe, by simp⟩
    | ok =>
        simpa using installPackagePath_safe newer ready (repositorySource candidate installed.metadata.name) safe
  · rw [if_neg passes] at safe
    have shortcut : (!(findInstalled left installed.metadata.name installed.metadata.version).isEmpty) = true := by
      simpa using passes
    simp only [installResolvedPackage, shortcut, if_true]
    exact ⟨Keeps.refl left, stillInstalled_of_candidate newer safe, fun _ => safe⟩

/-- A removal ends in one of three ways. -/
theorem removeInstalledPackage_cases :
    (RemovalStops outcome ∧ (removeInstalledPackage outcome installed state).2 = state ∧
        (removeInstalledPackage outcome installed state).1 ≠ some true) ∨
      (¬ RemovalStops outcome ∧ outcome.removeState = .lost ∧
        removeInstalledPackage outcome installed state =
          (some false, state.without (stateDir installed.metadata))) ∨
      (¬ RemovalStops outcome ∧ outcome.removeState = .removed ∧
        removeInstalledPackage outcome installed state =
          (some true, state.without (stateDir installed.metadata))) := by
  simp only [removeInstalledPackage, RemovalStops]
  cases outcome.removeHook with
  | throws => simp
  | fails => simp
  | ok =>
      cases outcome.removeArtifacts with
      | throws => simp
      | fails => simp
      | ok => cases outcome.removeState <;> simp

/-- A safe request that finds a newer candidate loses nothing. -/
theorem replaceInstalled_safe (finds : FindsNewer host outcome request state installed candidate)
    (safe : SafeRequest host outcome request state)
    (returns : (replaceInstalled host outcome installed candidate state).returned ≠ none) :
    Keeps host state (replaceInstalled host outcome installed candidate state).state ∧
      ((replaceInstalled host outcome installed candidate state).returned = some true →
        InstalledAs (replaceInstalled host outcome installed candidate state).state candidate) := by
  have condition := safe installed candidate finds
  have own : ∀ package ∈ state.installed, stateDir package.metadata = stateDir installed.metadata →
      package = installed := fun package member same => eq_of_stateDir member finds.member same
  rw [replaceInstalled] at returns ⊢
  rcases @removeInstalledPackage_cases outcome state installed with
    ⟨_, same, fails⟩ | ⟨goes, gone, removed⟩ | ⟨goes, gone, removed⟩
  · cases ended : removeInstalledPackage outcome installed state with
    | mk returned left =>
        rw [ended] at same fails
        simp only at same fails
        subst same
        cases returned with
        | none => exact ⟨Keeps.refl _, by simp⟩
        | some updated =>
            cases updated with
            | true => exact absurd rfl fails
            | false => exact ⟨Keeps.refl _, by simp⟩
  · rw [removed]
    rcases condition with stops | ⟨_, still⟩ | ⟨other, _⟩
    · exact absurd stops goes
    · refine ⟨keeps_of_without (Keeps.refl _) ?_, by simp⟩
      intro package member same
      rw [own package member same]
      exact still
    · rw [gone] at other
      cases other
  · rw [removed] at returns ⊢
    rcases condition with stops | ⟨other, _⟩ | ⟨_, installs⟩
    · exact absurd stops goes
    · rw [gone] at other
      cases other
    · obtain ⟨keeps, still, there⟩ := installResolvedPackage_safe finds.newer installs returns
      refine ⟨keeps_of_without keeps ?_, there⟩
      intro package member same
      rw [own package member same]
      exact still

/-- What one safe request preserves. -/
theorem updateOne_safe (safe : SafeRequest host outcome request state)
    (returns : (updateOne host outcome request state).returned ≠ none) :
    Keeps host state (updateOne host outcome request state).state ∧
      ((updateOne host outcome request state).returned = some true →
        ∀ candidate ∈ (updateOne host outcome request state).newer,
          InstalledAs (updateOne host outcome request state).state candidate) := by
  rcases @updateOne_cases host outcome request state with ⟨same, nothing⟩ | ⟨installed, candidate, finds, replaced⟩
  · rw [same, nothing]
    exact ⟨Keeps.refl state, by simp⟩
  · rw [replaced] at returns ⊢
    obtain ⟨keeps, there⟩ := replaceInstalled_safe finds safe returns
    refine ⟨keeps, ?_⟩
    intro updated other member
    have only : (replaceInstalled host outcome installed candidate state).newer = [candidate] := by
      rw [replaceInstalled]
      split <;> rfl
    rw [only, List.mem_singleton] at member
    subst member
    exact there updated

/-- A candidate that is the newest one for its name and is installed stays so. -/
theorem updateOne_candidate (safe : SafeRequest host outcome request state)
    (newest : resolvePackage host candidate.name [] = some candidate) (there : InstalledAs state candidate)
    (updated : (updateOne host outcome request state).returned = some true) :
    InstalledAs (updateOne host outcome request state).state candidate := by
  rcases @updateOne_cases host outcome request state with ⟨same, _⟩ | ⟨installed, other, finds, replaced⟩
  · rw [same]
    exact there
  · have condition := safe installed other finds
    obtain ⟨otherName, otherNewest, later⟩ := newerCandidate_resolved finds.newer
    obtain ⟨found, member, same⟩ := there
    have kept : stateDir found.metadata ≠ stateDir installed.metadata := by
      intro here
      have one := eq_of_stateDir member finds.member here
      subst one
      have named : other.name = candidate.name := by
        rw [otherName, same]
        rfl
      rw [named, newest] at otherNewest
      cases otherNewest
      rw [candidate_not_newer same] at later
      cases later
    have left : InstalledAs (state.without (stateDir installed.metadata)) candidate :=
      ⟨found, mem_without.2 ⟨member, kept⟩, same⟩
    rw [replaced] at updated ⊢
    rw [replaceInstalled] at updated ⊢
    rcases @removeInstalledPackage_cases outcome state installed with
      ⟨_, _, fails⟩ | ⟨_, _, removed⟩ | ⟨goes, gone, removed⟩
    · cases ended : removeInstalledPackage outcome installed state with
      | mk returned remaining =>
          rw [ended] at updated fails
          cases returned with
          | none => simp at updated
          | some done =>
              cases done with
              | true => exact absurd rfl fails
              | false => simp at updated
    · rw [removed] at updated
      simp at updated
    · rw [removed] at updated ⊢
      rcases condition with stops | ⟨lost, _⟩ | ⟨_, installs⟩
      · exact absurd stops goes
      · rw [gone] at lost
        cases lost
      · simp only [installResolvedPackage] at updated ⊢
        split
        · exact left
        · rename_i alone
          rw [if_neg alone] at updated
          have nothing : findInstalled (state.without (stateDir installed.metadata)) installed.metadata.name
              installed.metadata.version = [] := by
            simpa using alone
          rw [if_pos nothing] at installs
          cases ready : fetchArtifact host outcome other with
          | throws => simp [ready] at updated
          | fails => simp [ready] at updated
          | ok =>
              simp only [ready, Option.some.injEq] at updated ⊢
              simp only [InstallsOver, ready] at installs
              rw [installPackagePath] at updated ⊢
              split at updated
              · cases updated
              · rename_i package layout
                split at updated
                · cases updated
                · rename_i hook
                  split at updated
                  · rename_i persisted
                    have ran : outcome.installHook = true := by simpa using hook
                    simp only [layout, ran, persisted] at installs ⊢
                    exact installedAs_write installs.2 left
                  · cases updated

end Steps

/-! ## Runs -/

section Runs

variable {host}

theorem update_cons (request : UpdateRequest) (outcome : UpdateOutcome)
    (rest : List (UpdateRequest × UpdateOutcome)) (state : RqpState) :
    update host ((request, outcome) :: rest) state =
      match (updateOne host outcome request state).returned with
      | none => updateOne host outcome request state
      | some updated =>
          ⟨(update host rest (updateOne host outcome request state).state).returned.map fun all => updated && all,
            (update host rest (updateOne host outcome request state).state).state,
            (updateOne host outcome request state).newer ++
              (update host rest (updateOne host outcome request state).state).newer⟩ := rfl

/-- A candidate that is installed stays so through an update that succeeds. -/
theorem update_candidate {candidate : RqRepositoryPackage}
    (newest : resolvePackage host candidate.name [] = some candidate)
    (requests : List (UpdateRequest × UpdateOutcome)) (state : RqpState) (safe : SafeAlong host requests state)
    (there : InstalledAs state candidate) (updated : (update host requests state).returned = some true) :
    InstalledAs (update host requests state).state candidate := by
  induction requests generalizing state with
  | nil => exact there
  | cons first rest ih =>
      obtain ⟨request, outcome⟩ := first
      rw [update_cons] at updated ⊢
      cases returned : (updateOne host outcome request state).returned with
      | none => simp [returned] at updated
      | some done =>
          simp only [returned, Option.map_eq_some_iff, Bool.and_eq_true] at updated ⊢
          obtain ⟨all, others, done, rfl⟩ := updated
          subst done
          exact ih _ (safe.2 (by simp [returned])) (updateOne_candidate safe.1 newest there returned) others

theorem updateOne_newest {outcome : UpdateOutcome} {request : UpdateRequest} {state : RqpState}
    {candidate : RqRepositoryPackage} (member : candidate ∈ (updateOne host outcome request state).newer) :
    resolvePackage host candidate.name [] = some candidate := by
  rcases @updateOne_cases host outcome request state with ⟨_, nothing⟩ | ⟨installed, other, finds, replaced⟩
  · rw [nothing] at member
    cases member
  · have only : (replaceInstalled host outcome installed other state).newer = [other] := by
      rw [replaceInstalled]
      split <;> rfl
    rw [replaced, only, List.mem_singleton] at member
    subst member
    exact (newerCandidate_resolved finds.newer).2.1

end Runs

/-- An update whose requests are all safe loses no package, and if it reports success every
package with a newer candidate has been replaced by it. -/
theorem update_loses_nothing (host : RqpHost) (requests : List (UpdateRequest × UpdateOutcome)) (state : RqpState)
    (safe : SafeAlong host requests state) :
    (update host requests state).returned ≠ none →
      Keeps host state (update host requests state).state ∧
        ((update host requests state).returned = some true →
          ∀ candidate ∈ (update host requests state).newer,
            InstalledAs (update host requests state).state candidate) := by
  induction requests generalizing state with
  | nil =>
      intro _
      exact ⟨Keeps.refl state, by simp [update]⟩
  | cons first rest ih =>
      obtain ⟨request, outcome⟩ := first
      intro returns
      rw [update_cons] at returns ⊢
      cases returned : (updateOne host outcome request state).returned with
      | none => simp [returned] at returns
      | some done =>
          have reached : (updateOne host outcome request state).returned ≠ none := by simp [returned]
          obtain ⟨keeps, there⟩ := updateOne_safe safe.1 reached
          simp only [returned, ne_eq, Option.map_eq_none_iff] at returns ⊢
          obtain ⟨keepsRest, thereRest⟩ := ih _ (safe.2 reached) returns
          refine ⟨keeps.trans keepsRest, ?_⟩
          intro updated candidate member
          simp only [Option.map_eq_some_iff, Bool.and_eq_true] at updated
          obtain ⟨all, others, done, rfl⟩ := updated
          subst done
          rcases List.mem_append.mp member with here | later
          · exact update_candidate (updateOne_newest here) rest _ (safe.2 reached) (there returned candidate here)
              others
          · exact thereRest others candidate later

/-! ## An update of one package -/

/-- Versions in the order of the number that their digits make. -/
def digitsOrder : VersionOrder where
  compareValues left right := (decimalValue (left.filter isDigit) : Int) - decimalValue (right.filter isDigit)
  flip left right := by omega
  trans first second third := by omega

def demoPackage (version : String) : RqRepositoryPackage where
  repository := bytes "main"
  name := bytes "updatable-demo"
  version := bytes version
  release := 1
  revision := 0
  architecture := bytes "noarch"
  systems := []
  url := bytes "file:///demo.rqp"
  packageSha256 := []

def demoHost : RqpHost where
  order := digitsOrder
  hostArchitecture := bytes "x86_64"
  systemMatches _ := true
  sha256Hex _ := []
  indexes := [{ packages := [demoPackage "1.0.0", demoPackage "1.1.0"] }]

def demoInstalled (version : String) : RqpInstalledPackage where
  metadata := (demoPackage version).packageId
  source := repositorySource (demoPackage version) (bytes "updatable-demo")

def demoState : RqpState where
  installed := [demoInstalled "1.0.0"]

def demoRequest : UpdateRequest where
  name := bytes "updatable-demo"

theorem demo_finds {outcome : UpdateOutcome} {installed : RqpInstalledPackage} {candidate : RqRepositoryPackage}
    (finds : FindsNewer demoHost outcome demoRequest demoState installed candidate) :
    installed = demoInstalled "1.0.0" ∧ candidate = demoPackage "1.1.0" := by
  have found : (findInstalled demoState demoRequest.name demoRequest.version).head? = some (demoInstalled "1.0.0") := by
    decide +kernel
  have first := finds.found
  rw [found] at first
  cases first
  have newest : newerCandidate demoHost (demoInstalled "1.0.0") = some (demoPackage "1.1.0") := by
    decide +kernel
  have second := finds.newer
  rw [newest] at second
  cases second
  exact ⟨rfl, rfl⟩

theorem update_loses_nothing_demo :
    SafeAlong demoHost [(demoRequest, { layout := some (demoPackage "1.1.0").packageId })] demoState ∧
      ((update demoHost [(demoRequest, { layout := some (demoPackage "1.1.0").packageId })] demoState).returned ≠
          none →
        Keeps demoHost demoState
            (update demoHost [(demoRequest, { layout := some (demoPackage "1.1.0").packageId })] demoState).state ∧
          ((update demoHost [(demoRequest, { layout := some (demoPackage "1.1.0").packageId })]
              demoState).returned = some true →
            ∀ candidate ∈ (update demoHost
                [(demoRequest, { layout := some (demoPackage "1.1.0").packageId })] demoState).newer,
              InstalledAs (update demoHost
                [(demoRequest, { layout := some (demoPackage "1.1.0").packageId })] demoState).state candidate)) := by
  have safe : SafeAlong demoHost [(demoRequest, { layout := some (demoPackage "1.1.0").packageId })] demoState := by
    refine ⟨?_, fun _ => trivial⟩
    intro installed candidate finds
    obtain ⟨rfl, rfl⟩ := demo_finds finds
    refine Or.inr (Or.inr ⟨rfl, ?_⟩)
    have alone : findInstalled (demoState.without (stateDir (demoInstalled "1.0.0").metadata))
        (demoInstalled "1.0.0").metadata.name (demoInstalled "1.0.0").metadata.version = [] := by
      decide +kernel
    have nothing : (demoState.without (stateDir (demoInstalled "1.0.0").metadata)).installed = [] := by
      decide +kernel
    rw [if_pos alone]
    refine ⟨Or.inl ⟨rfl, by decide +kernel, by decide +kernel⟩, ?_⟩
    intro other member
    rw [nothing] at member
    cases member
  exact ⟨safe, update_loses_nothing demoHost _ demoState safe⟩

/-- The package is gone when its new artifact cannot be downloaded. -/
theorem failed_download_loses_package :
    ¬ ∀ (host : RqpHost) (requests : List (UpdateRequest × UpdateOutcome)) (state : RqpState),
      (update host requests state).returned ≠ none →
        Keeps host state (update host requests state).state ∧
          ((update host requests state).returned = some true →
            ∀ candidate ∈ (update host requests state).newer,
              InstalledAs (update host requests state).state candidate) := by
  intro all
  have returned : (update demoHost [(demoRequest, { artifact := .fails, layout := none })] demoState).returned =
      some false := by
    decide +kernel
  have gone : (update demoHost [(demoRequest, { artifact := .fails, layout := none })]
      demoState).state.installed = [] := by
    decide +kernel
  have kept := (all demoHost [(demoRequest, { artifact := .fails, layout := none })] demoState
    (by simp [returned])).1 (demoInstalled "1.0.0") (by simp [demoState])
  obtain ⟨found, member, _⟩ := kept
  rw [gone] at member
  cases member

end ReqPack.Rqp
