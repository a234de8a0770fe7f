import ReqPack.Rqp.Update

/-! # Requests for a version

`RqpPlugin::remove` and `RqpPlugin::install` look for the requested version among what is
installed.  An entry from a repository is also found by any text its version or its
identity begins with.
-/

namespace ReqPack.Rqp

open ReqPack.Data
open ReqPack.Data.Ascii

/-! ## The two commands -/

/-- `std::sort` by `compareInstalledVersions(left, right) > 0`. -/
structure NewestFirst (order : VersionOrder) where
  sort : List RqpInstalledPackage → List RqpInstalledPackage
  perm : ∀ entries, (sort entries).Perm entries
  sorted : ∀ entries, (sort entries).Pairwise fun left right => AtLeast order left.metadata right.metadata

/-- How one request of a command was handled; nothing is returned when it throws. -/
structure RequestReport where
  request : UpdateRequest
  outcome : UpdateOutcome
  before : RqpState
  returned : Option Bool
  after : RqpState

/-- The loop of a command over its requests. -/
def handleRequests (step : UpdateOutcome → UpdateRequest → RqpState → Option Bool × RqpState) :
    List (UpdateRequest × UpdateOutcome) → RqpState → List RequestReport
  | [], _ => []
  | (request, outcome) :: rest, state =>
      let result := step outcome request state
      ⟨request, outcome, state, result.1, result.2⟩ ::
        if result.1.isSome then handleRequests step rest result.2 else []

/-- `allRemoved` and `allInstalled`. -/
def allSucceed (reports : List RequestReport) : Option Bool :=
  (reports.mapM RequestReport.returned).map fun results => results.all id

section Commands

variable (host : RqpHost) (newest : NewestFirst host.order)

/-- The body of the loop of `remove`. -/
def removeOne (outcome : UpdateOutcome) (request : UpdateRequest) (state : RqpState) : Option Bool × RqpState :=
  match newest.sort (findInstalled state request.name request.version) with
  | [] => (some false, state)
  | target :: others =>
      if request.version.isEmpty && !others.isEmpty then (some false, state)
      else removeInstalledPackage outcome target state

/-- The body of the loop of `install`. -/
def installOne (outcome : UpdateOutcome) (request : UpdateRequest) (state : RqpState) : Option Bool × RqpState :=
  if host.indexes.isEmpty then (some false, state)
  else
    match resolvePackage host request.name request.version with
    | none => (some false, state)
    | some candidate => installResolvedPackage host outcome request.name request.version candidate state

def removeRequests (requests : List (UpdateRequest × UpdateOutcome)) (state : RqpState) : List RequestReport :=
  handleRequests (removeOne host newest) requests state

def installRequests (requests : List (UpdateRequest × UpdateOutcome)) (state : RqpState) : List RequestReport :=
  handleRequests (installOne host) requests state

end Commands

/-! ## What a version stands for -/

def isVersionBoundary (c : UInt8) : Bool := c == 46 || c == 45 || c == 43

/-- The text is the version up to letter case, or it goes on behind it at a boundary. -/
def agreesWithVersion (version text : Bytes) : Bool :=
  iequals (text.take version.length) version && (text.drop version.length).head?.all isVersionBoundary

namespace RqpInstalledPackage

/-- The version behind the last `@` of the recorded source. -/
def sourceVersion (installed : RqpInstalledPackage) : Option Bytes :=
  match splitAtLast atSign installed.source.path with
  | none => none
  | some (_, version) => if version.isEmpty then none else some version

def recordedVersions (installed : RqpInstalledPackage) : List Bytes :=
  [installed.metadata.version, installedVersionString installed.metadata, installed.identity] ++
    installed.sourceVersion.toList

def agrees (installed : RqpInstalledPackage) (version : Bytes) : Bool :=
  installed.recordedVersions.any (agreesWithVersion version)

/-- The entry is found for no better reason than that its version or its identity begins
with the text. -/
def MerelyBegins (installed : RqpInstalledPackage) (version : Bytes) : Prop :=
  installed.sourceVersion.isSome = true ∧
    (version <+: installed.metadata.version ∨ version <+: installed.identity) ∧
    ∀ text ∈ installed.recordedVersions, agreesWithVersion version text = false

end RqpInstalledPackage

/-- The newest entry a removal finds does not merely begin with the version. -/
def RemovalAgrees (host : RqpHost) (newest : NewestFirst host.order) (report : RequestReport) : Prop :=
  RemovalStops report.outcome ∨
    ∀ target, (newest.sort (findInstalled report.before report.request.name report.request.version)).head? = some target →
      ¬ target.MerelyBegins report.request.version

/-- An entry of the name agrees with the version although the search passes it over. -/
def Overlooked (report : RequestReport) (entry : RqpInstalledPackage) : Prop :=
  entry ∈ report.before.installed ∧ installedNameMatches entry report.request.name = true ∧
    installedVersionMatches entry report.request.version = false ∧ entry.agrees report.request.version = true

/-- What is written for a request can be loaded again, under its name and version. -/
def WrittenAgrees (request : UpdateRequest) (written : RqpInstalledPackage) : Prop :=
  (isDirectoryName written.metadata.name = true ∧ isDirectoryName written.identity = true) ∧
    installedNameMatches written request.name = true ∧ written.agrees request.version = true

/-- An installation that stops early found more than entries that merely begin with the
version; one that goes on writes an entry that agrees, or leaves one. -/
def InstallAgrees (host : RqpHost) (report : RequestReport) : Prop :=
  if findInstalled report.before report.request.name report.request.version = [] then
    ∃ candidate package, resolvePackage host report.request.name report.request.version = some candidate ∧
      report.outcome.layout = some package ∧
        (WrittenAgrees report.request ⟨package, repositorySource candidate report.request.name⟩ ∨
          ∃ entry, Overlooked report entry ∧
            (stateDir entry.metadata ≠ stateDir package ∨
              (isDirectoryName package.name && isDirectoryName (rqPackageIdentity package)) = false))
  else
    (∃ entry ∈ findInstalled report.before report.request.name report.request.version,
      ¬ entry.MerelyBegins report.request.version) ∨ ∃ entry, Overlooked report entry

/-! ## What the search accepts -/

section Matching

variable {installed : RqpInstalledPackage} {version text : Bytes}

theorem agrees_of_iequals (same : iequals text version = true) : agreesWithVersion version text = true := by
  have lowered : toLowerCopy text = toLowerCopy version := by simpa [iequals] using same
  have length : text.length = version.length := by
    have lengths := congrArg List.length lowered
    simpa [toLowerCopy] using lengths
  simp [agreesWithVersion, ← length, same]

theorem not_merelyBegins_of_agrees (agrees : installed.agrees version = true) : ¬ installed.MerelyBegins version := by
  intro merely
  obtain ⟨text, member, same⟩ := List.any_eq_true.mp agrees
  rw [merely.2.2 text member] at same
  cases same

/-- An entry that is found for a version agrees with it, or merely begins with it. -/
theorem agrees_or_merelyBegins (named : version ≠ []) (found : installedVersionMatches installed version = true) :
    installed.agrees version = true ∨ installed.MerelyBegins version := by
  have metadataListed : installed.metadata.version ∈ installed.recordedVersions := by
    simp [RqpInstalledPackage.recordedVersions]
  have fullListed : installedVersionString installed.metadata ∈ installed.recordedVersions := by
    simp [RqpInstalledPackage.recordedVersions]
  have identityListed : installed.identity ∈ installed.recordedVersions := by
    simp [RqpInstalledPackage.recordedVersions]
  cases agrees : installed.agrees version with
  | true => exact Or.inl rfl
  | false =>
      have none_agrees : ∀ text ∈ installed.recordedVersions, agreesWithVersion version text = false := by
        intro text member
        have all := List.any_eq_false.mp agrees text member
        simpa using all
      have apart {text : Bytes} (member : text ∈ installed.recordedVersions) : iequals text version = false := by
        cases same : iequals text version with
        | false => rfl
        | true =>
            have reached := agrees_of_iequals same
            rw [none_agrees text member] at reached
            cases reached
      have unequal {text : Bytes} (member : text ∈ installed.recordedVersions) : (text == version) = false := by
        cases same : text == version with
        | false => rfl
        | true =>
            have split := apart member
            rw [beq_iff_eq.mp same] at split
            simp [iequals] at split
      have empty : version.isEmpty = false := by simpa using named
      simp only [installedVersionMatches, empty, unequal metadataListed, unequal identityListed, unequal fullListed,
        apart fullListed, Bool.false_or] at found
      cases path : splitAtLast atSign installed.source.path with
      | none => simp [path] at found
      | some parts =>
          obtain ⟨front, source⟩ := parts
          simp only [path, Bool.and_eq_true, Bool.or_eq_true] at found
          obtain ⟨present, matched⟩ := found
          have recorded : installed.sourceVersion = some source := by
            have filled : source.isEmpty = false := by simpa using present
            simp [RqpInstalledPackage.sourceVersion, path, filled]
          have sourceListed : source ∈ installed.recordedVersions := by
            simp [RqpInstalledPackage.recordedVersions, recorded]
          have begins : version <+: installed.metadata.version ∨ version <+: installed.identity := by
            rcases matched with (same | metadata) | identity
            · rw [apart sourceListed] at same
              cases same
            · exact Or.inl (List.isPrefixOf_iff_prefix.mp metadata)
            · exact Or.inr (List.isPrefixOf_iff_prefix.mp identity)
          exact Or.inr ⟨by simp [recorded], begins, none_agrees⟩

/-- Among the entries that are found, those that agree are those that do not merely begin
with the version. -/
theorem agrees_iff_not_merelyBegins (named : version ≠ [])
    (found : installedVersionMatches installed version = true) :
    installed.agrees version = true ↔ ¬ installed.MerelyBegins version := by
  constructor
  · exact not_merelyBegins_of_agrees
  · intro not
    exact (agrees_or_merelyBegins named found).resolve_right not

end Matching

/-! ## Every report of a run -/

/-- A report says what one step made of one request. -/
theorem mem_handleRequests {step : UpdateOutcome → UpdateRequest → RqpState → Option Bool × RqpState}
    {requests : List (UpdateRequest × UpdateOutcome)} {state : RqpState} {report : RequestReport}
    (member : report ∈ handleRequests step requests state) :
    step report.outcome report.request report.before = (report.returned, report.after) := by
  induction requests generalizing state with
  | nil => cases member
  | cons first rest ih =>
      obtain ⟨request, outcome⟩ := first
      simp only [handleRequests] at member
      rcases List.mem_cons.mp member with rfl | later
      · rfl
      · split at later
        · exact ih later
        · cases later

section Removals

variable {host : RqpHost} {newest : NewestFirst host.order} {report : RequestReport}

/-- A removal takes away the entry it was given, or it stops. -/
theorem removeInstalledPackage_after (outcome : UpdateOutcome) (installed : RqpInstalledPackage) (state : RqpState) :
    (RemovalStops outcome ∧ (removeInstalledPackage outcome installed state).2 = state) ∨
      (¬ RemovalStops outcome ∧
        (removeInstalledPackage outcome installed state).2 = state.without (stateDir installed.metadata)) := by
  cases hook : outcome.removeHook with
  | fails => exact Or.inl ⟨Or.inl (by simp [hook]), by simp [removeInstalledPackage, hook]⟩
  | throws => exact Or.inl ⟨Or.inl (by simp [hook]), by simp [removeInstalledPackage, hook]⟩
  | ok =>
      cases artifacts : outcome.removeArtifacts with
      | fails => exact Or.inl ⟨Or.inr (Or.inl (by simp [artifacts])), by simp [removeInstalledPackage, hook, artifacts]⟩
      | throws => exact Or.inl ⟨Or.inr (Or.inl (by simp [artifacts])), by simp [removeInstalledPackage, hook, artifacts]⟩
      | ok =>
          cases gone : outcome.removeState with
          | kept => exact Or.inl ⟨Or.inr (Or.inr gone), by simp [removeInstalledPackage, hook, artifacts, gone]⟩
          | removed =>
              refine Or.inr ⟨?_, by simp [removeInstalledPackage, hook, artifacts, gone]⟩
              simp [RemovalStops, hook, artifacts, gone]
          | lost =>
              refine Or.inr ⟨?_, by simp [removeInstalledPackage, hook, artifacts, gone]⟩
              simp [RemovalStops, hook, artifacts, gone]

/-- The entry a removal is about is one of those that are found. -/
theorem target_found {target : RqpInstalledPackage} {entries : List RqpInstalledPackage}
    (first : (newest.sort entries).head? = some target) : target ∈ entries :=
  (newest.perm entries).mem_iff.mp (List.mem_of_head? first)

theorem removeOne_agrees (named : report.request.version ≠ [])
    (handled : removeOne host newest report.outcome report.request report.before = (report.returned, report.after)) :
    (∀ entry ∈ report.before.installed, entry ∉ report.after.installed →
        entry.agrees report.request.version = true) ↔ RemovalAgrees host newest report := by
  have given : report.request.version.isEmpty = false := by simpa using named
  cases chosen : newest.sort (findInstalled report.before report.request.name report.request.version) with
  | nil =>
      simp only [removeOne, chosen, Prod.mk.injEq] at handled
      constructor
      · intro _
        refine Or.inr fun target first => ?_
        rw [chosen] at first
        cases first
      · intro _ entry member gone
        rw [← handled.2] at gone
        exact absurd member gone
  | cons target others =>
      have first : (newest.sort (findInstalled report.before report.request.name
          report.request.version)).head? = some target := by
        simp [chosen]
      obtain ⟨member, _, matched⟩ := mem_findInstalled.1 (target_found first)
      have after : (removeInstalledPackage report.outcome target report.before).2 = report.after := by
        simp only [removeOne, chosen, given, Bool.false_and, Bool.false_eq_true, if_false] at handled
        rw [handled]
      have one : RemovalAgrees host newest report ↔
          RemovalStops report.outcome ∨ ¬ target.MerelyBegins report.request.version := by
        simp only [RemovalAgrees, first, Option.some.injEq, forall_eq']
      rw [one]
      rcases removeInstalledPackage_after report.outcome target report.before with ⟨stops, same⟩ | ⟨goes, taken⟩
      · constructor
        · exact fun _ => Or.inl stops
        · intro _ entry present gone
          rw [← after, same] at gone
          exact absurd present gone
      · rw [or_iff_right goes, ← agrees_iff_not_merelyBegins named matched]
        constructor
        · intro all
          apply all target member
          rw [← after, taken, mem_without]
          exact fun left => left.2 rfl
        · intro agrees entry present gone
          have here : stateDir entry.metadata = stateDir target.metadata := by
            by_contra apart
            apply gone
            rw [← after, taken, mem_without]
            exact ⟨present, apart⟩
          rw [eq_of_stateDir present member here]
          exact agrees

end Removals

section Installations

variable {host : RqpHost} {report : RequestReport}

/-- The request is met when an installed entry of the name agrees with the version. -/
def Met (state : RqpState) (request : UpdateRequest) : Prop :=
  ∃ entry ∈ state.installed, installedNameMatches entry request.name = true ∧ entry.agrees request.version = true

/-- A successful installation found an entry, or it wrote one. -/
theorem installOne_success
    (handled : installOne host report.outcome report.request report.before = (some true, report.after)) :
    ∃ candidate, resolvePackage host report.request.name report.request.version = some candidate ∧
      (findInstalled report.before report.request.name report.request.version ≠ [] ∧ report.after = report.before ∨
        findInstalled report.before report.request.name report.request.version = [] ∧
          ∃ package, report.outcome.layout = some package ∧
            report.after = report.before.write ⟨package, repositorySource candidate report.request.name⟩) := by
  rw [installOne] at handled
  split at handled
  · cases handled
  · split at handled
    · cases handled
    · rename_i candidate resolved
      refine ⟨candidate, resolved, ?_⟩
      rw [installResolvedPackage] at handled
      by_cases nothing : findInstalled report.before report.request.name report.request.version = []
      · refine Or.inr ⟨nothing, ?_⟩
        simp only [nothing, List.isEmpty_nil, Bool.not_true, Bool.false_eq_true, if_false] at handled
        split at handled
        · cases handled
        · cases handled
        · simp only [Prod.mk.injEq, Option.some.injEq] at handled
          obtain ⟨returned, after⟩ := handled
          cases layout : report.outcome.layout with
          | none => simp [installPackagePath, layout] at returned
          | some package =>
              cases hook : report.outcome.installHook with
              | false => simp [installPackagePath, layout, hook] at returned
              | true =>
                  cases persisted : report.outcome.persist with
                  | fails damages => simp [installPackagePath, layout, hook, persisted] at returned
                  | written =>
                      refine ⟨package, rfl, ?_⟩
                      rw [← after]
                      simp [installPackagePath, layout, hook, persisted]
      · refine Or.inl ⟨nothing, ?_⟩
        have present : (!(findInstalled report.before report.request.name report.request.version).isEmpty) = true := by
          simpa using nothing
        rw [if_pos present] at handled
        exact (Prod.mk.inj handled).2.symm

theorem met_write_iff {state : RqpState} {request : UpdateRequest} {written : RqpInstalledPackage} :
    Met (state.write written) request ↔
      WrittenAgrees request written ∨
        ∃ entry ∈ state.installed, (installedNameMatches entry request.name = true ∧
          entry.agrees request.version = true) ∧
          (stateDir entry.metadata ≠ stateDir written.metadata ∨
            (isDirectoryName written.metadata.name && isDirectoryName written.identity) = false) := by
  simp only [Met, RqpState.write, WrittenAgrees]
  cases listed : isDirectoryName written.metadata.name && isDirectoryName written.identity with
  | false =>
      have unlisted : ¬ (isDirectoryName written.metadata.name = true ∧ isDirectoryName written.identity = true) := by
        intro both
        rw [both.1, both.2] at listed
        cases listed
      simp [unlisted]
  | true =>
      have both : isDirectoryName written.metadata.name = true ∧ isDirectoryName written.identity = true := by
        simpa using listed
      simp only [if_true, List.mem_cons, exists_eq_or_imp, mem_without, both, and_self, true_and,
        Bool.true_eq_false, or_false]
      refine or_congr_right ⟨?_, ?_⟩
      · intro ⟨entry, ⟨member, other⟩, met⟩
        exact ⟨entry, member, met, other⟩
      · intro ⟨entry, member, met, other⟩
        exact ⟨entry, ⟨member, other⟩, met⟩

theorem installOne_agrees (named : report.request.version ≠ [])
    (handled : installOne host report.outcome report.request report.before = (some true, report.after)) :
    Met report.after report.request ↔ InstallAgrees host report := by
  obtain ⟨candidate, resolved, ⟨found, same⟩ | ⟨nothing, package, layout, wrote⟩⟩ := installOne_success handled
  · rw [InstallAgrees, if_neg found, same]
    constructor
    · intro ⟨entry, member, name, agrees⟩
      cases matched : installedVersionMatches entry report.request.version with
      | false => exact Or.inr ⟨entry, member, name, matched, agrees⟩
      | true =>
          exact Or.inl ⟨entry, mem_findInstalled.2 ⟨member, name, matched⟩, not_merelyBegins_of_agrees agrees⟩
    · intro condition
      rcases condition with ⟨entry, listed, not⟩ | ⟨entry, member, name, _, agrees⟩
      · obtain ⟨member, name, matched⟩ := mem_findInstalled.1 listed
        exact ⟨entry, member, name, (agrees_iff_not_merelyBegins named matched).mpr not⟩
      · exact ⟨entry, member, name, agrees⟩
  · have passedOver {entry : RqpInstalledPackage} (member : entry ∈ report.before.installed)
        (name : installedNameMatches entry report.request.name = true) :
        installedVersionMatches entry report.request.version = false := by
      cases matched : installedVersionMatches entry report.request.version with
      | false => rfl
      | true =>
          have listed := mem_findInstalled.2 ⟨member, name, matched⟩
          rw [nothing] at listed
          cases listed
    rw [InstallAgrees, if_pos nothing, wrote, met_write_iff]
    simp only [resolved, layout, Option.some.injEq, exists_and_left, exists_eq_left']
    refine or_congr_right ⟨?_, ?_⟩
    · intro ⟨entry, member, ⟨name, agrees⟩, stays⟩
      exact ⟨entry, ⟨member, name, passedOver member name, agrees⟩, stays⟩
    · intro ⟨entry, ⟨member, name, _, agrees⟩, stays⟩
      exact ⟨entry, member, ⟨name, agrees⟩, stays⟩

end Installations

/-- Every removal takes away only what agrees with the version, and every installation that
reports success leaves an entry that does, exactly when nothing that merely begins with the
version is taken for it. -/
theorem requests_reach_version (host : RqpHost) (newest : NewestFirst host.order)
    (requests : List (UpdateRequest × UpdateOutcome)) (state : RqpState) :
    (∀ report ∈ removeRequests host newest requests state, report.request.version ≠ [] →
      ((∀ entry ∈ report.before.installed, entry ∉ report.after.installed →
          entry.agrees report.request.version = true) ↔ RemovalAgrees host newest report)) ∧
      ∀ report ∈ installRequests host requests state, report.request.version ≠ [] →
        report.returned = some true → (Met report.after report.request ↔ InstallAgrees host report) := by
  constructor
  · intro report member named
    exact removeOne_agrees named (mem_handleRequests member)
  · intro report member named success
    have handled := mem_handleRequests member
    rw [success] at handled
    exact installOne_agrees named handled

/-! ## Version 1 beside version 10 -/

/-- Sorting by insertion puts the newest version first. -/
theorem insertionSort_newest (order : VersionOrder) (entries : List RqpInstalledPackage) :
    (entries.insertionSort fun left right => 0 ≤ compareInstalledVersions order left.metadata right.metadata).Pairwise
      fun left right => AtLeast order left.metadata right.metadata := by
  have total : Std.Total fun left right : RqpInstalledPackage =>
      0 ≤ compareInstalledVersions order left.metadata right.metadata := by
    constructor
    intro left right
    have flip := order.flip left.metadata.version right.metadata.version
    have back := order.flip right.metadata.version left.metadata.version
    have forth := @atLeast_iff order left.metadata right.metadata
    have around := @atLeast_iff order right.metadata left.metadata
    simp only [AtLeast] at forth around
    omega
  have trans : IsTrans RqpInstalledPackage fun left right =>
      0 ≤ compareInstalledVersions order left.metadata right.metadata :=
    ⟨fun _ _ _ newer older => atLeast_trans newer older⟩
  have sorted := List.pairwise_insertionSort
    (fun left right : RqpInstalledPackage => 0 ≤ compareInstalledVersions order left.metadata right.metadata) entries
  exact sorted

def newestFirst (order : VersionOrder) : NewestFirst order where
  sort entries := entries.insertionSort fun left right => 0 ≤ compareInstalledVersions order left.metadata right.metadata
  perm _ := List.perm_insertionSort _ _
  sorted := insertionSort_newest order

def versionedHost : RqpHost :=
  { demoHost with indexes := [{ packages := [demoPackage "1", demoPackage "10.0"] }] }

def tenInstalled : RqpState where
  installed := [demoInstalled "10.0"]

def versionRequest (version : String) : UpdateRequest where
  name := bytes "updatable-demo"
  version := bytes version

/-- The package an artifact of the repository holds. -/
def versionOutcome (version : String) : UpdateOutcome where
  layout := some (demoPackage version).packageId

theorem requests_reach_version_ten :
    (∃ report ∈ removeRequests versionedHost (newestFirst digitsOrder) [(versionRequest "10.0", versionOutcome "10.0")]
        tenInstalled, report.after.installed = [] ∧ RemovalAgrees versionedHost (newestFirst digitsOrder) report) ∧
      ∃ report ∈ installRequests versionedHost [(versionRequest "10.0", versionOutcome "10.0")] {},
        report.returned = some true ∧ InstallAgrees versionedHost report := by
  have reached := requests_reach_version versionedHost (newestFirst digitsOrder)
    [(versionRequest "10.0", versionOutcome "10.0")]
  constructor
  · refine ⟨_, List.mem_cons_self, by decide +kernel, ?_⟩
    apply ((reached tenInstalled).1 _ List.mem_cons_self (by decide)).mp
    decide +kernel
  · refine ⟨_, List.mem_cons_self, by decide +kernel, ?_⟩
    apply ((reached {}).2 _ List.mem_cons_self (by decide) (by decide +kernel)).mp
    exact ⟨demoInstalled "10.0", by decide +kernel, by decide +kernel, by decide +kernel⟩

/-- A request for version 1 removes version 10.0, and counts as installed beside it. -/
theorem beginning_taken_for_version :
    (¬ ∀ (host : RqpHost) (newest : NewestFirst host.order) (requests : List (UpdateRequest × UpdateOutcome))
        (state : RqpState), ∀ report ∈ removeRequests host newest requests state, report.request.version ≠ [] →
          ∀ entry ∈ report.before.installed, entry ∉ report.after.installed →
            entry.agrees report.request.version = true) ∧
      ¬ ∀ (host : RqpHost) (requests : List (UpdateRequest × UpdateOutcome)) (state : RqpState),
        ∀ report ∈ installRequests host requests state, report.request.version ≠ [] →
          report.returned = some true → Met report.after report.request := by
  have apart : (demoInstalled "10.0").agrees (bytes "1") = false := by decide +kernel
  constructor
  · intro all
    have removed := all versionedHost (newestFirst digitsOrder) [(versionRequest "1", versionOutcome "1")] tenInstalled
      _ List.mem_cons_self (by decide) (demoInstalled "10.0") List.mem_cons_self (by decide +kernel)
    rw [show (versionRequest "1").version = bytes "1" from rfl, apart] at removed
    cases removed
  · intro all
    obtain ⟨entry, member, _, agrees⟩ := all versionedHost [(versionRequest "1", versionOutcome "1")] tenInstalled
      _ List.mem_cons_self (by decide) (by decide +kernel)
    have same : (installOne versionedHost (versionOutcome "1") (versionRequest "1") tenInstalled).2 = tenInstalled := by
      rw [installOne, if_neg (by decide)]
      have resolved : resolvePackage versionedHost (bytes "updatable-demo") (bytes "1") = some (demoPackage "1") := by
        decide +kernel
      have found : findInstalled tenInstalled (bytes "updatable-demo") (bytes "1") = [demoInstalled "10.0"] := by
        decide +kernel
      simp [versionRequest, resolved, installResolvedPackage, found]
    rw [same] at member
    rw [List.mem_singleton.mp member, show (versionRequest "1").version = bytes "1" from rfl, apart] at agrees
    cases agrees

end ReqPack.Rqp
