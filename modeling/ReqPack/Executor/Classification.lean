import ReqPack.Executor.ItemResults
import ReqPack.PluginHost.MissingPackages

/-! # Failures as the plugin reports them

When a call failed, the plugin is asked which packages are still missing.  Those are
recorded as failed and all others as done.
-/

namespace ReqPack.Executor

open ReqPack.Core ReqPack.Scheduler
open ReqPack.PluginHost.LuaBridgeValueMapper

section Results

variable {σ : Type} (host : Host σ)

/-- The packages of a group in the order of their records, with how they ended. -/
def groupResults (group : TaskGroup) (runId : String) (world : World σ) : List (Package × Outcome) :=
  match world.journal.updateItemsStatus host.actionCode runId group.packages .running "" with
  | none => group.packages.map fun package =>
      (package, { status := .failed, errorMessage := "transaction update failed" })
  | some journal =>
      let dispatched := dispatchTaskGroupToPlugin host group { world with journal := journal }
      if dispatched.1 then group.packages.map fun package => (package, { status := .success })
      else settledResults host group dispatched.2

variable {host} {group : TaskGroup} {runId : String}

theorem groupResults_perm (runId : String) (world : World σ) :
    ((groupResults host group runId world).map Prod.fst).Perm group.packages := by
  unfold groupResults
  split
  · simp [Function.comp_def]
  · dsimp only
    split
    · simp [Function.comp_def]
    · exact settledResults_perm _

/-- The records of a group are reports on its packages, one for each. -/
theorem runTaskGroup_results (uniform : Uniform group) (shared : group.usesLocalTarget = false) (runId : String)
    (world : World σ) :
    (runTaskGroup host group runId world).1 = (groupResults host group runId world).map (reportOf runId) := by
  have all := fun outcome : Outcome => map_makeRecord runId uniform (fun _ listed => listed) fun _ => outcome
  cases updated : world.journal.updateItemsStatus host.actionCode runId group.packages .running "" with
  | none =>
      simp only [runTaskGroup, groupResults, shared, updated, Bool.false_eq_true, if_false]
      exact all { status := .failed, errorMessage := "transaction update failed" }
  | some journal =>
      cases ok : (dispatchTaskGroupToPlugin host group { world with journal := journal }).1 with
      | true =>
          simp only [runTaskGroup, groupResults, shared, updated, ok, Bool.false_eq_true, if_false, if_true]
          exact all { status := .success }
      | false =>
          simp only [runTaskGroup, groupResults, shared, updated, ok, Bool.false_eq_true, if_false]
          exact settleFailedCall_results runId uniform _

end Results

section Answers

variable {σ : Type} (actionOfNumber : Int → Option ActionType)
  (answer : String → List Package → σ → MissingAnswer × σ) (host : Host σ)

/-- The host whose plugins are Lua scripts that answer so. -/
def withLua : Host σ :=
  { host with
    getMissingPackages := fun system packages plugins =>
      let answered := answer system packages plugins
      ((getMissingPackages actionOfNumber packages answered.1).filterMap AnsweredPackage.toPackage, answered.2) }

/-- The list the plugin answered with, if the call of the group failed and it was asked. -/
def rawAnswer (group : TaskGroup) (runId : String) (world : World σ) : Option (List LuaEntry) :=
  match world.journal.updateItemsStatus host.actionCode runId group.packages .running "" with
  | none => none
  | some journal =>
      let dispatched := dispatchTaskGroupToPlugin host group { world with journal := journal }
      let asked := (takeUnavailable host group dispatched.2).2
      if dispatched.1 then none
      else if actionUsesMissingPackageFilter group.action && host.hasPlugin asked.plugins group.system then
        match (answer group.system group.packages asked.plugins).1 with
        | .unusable => none
        | .list entries => some entries
      else none

/-- One record for each package, and failed for those an entry of the answer names alone. -/
structure ClassifiedAsAnswered (group : TaskGroup) (runId : String) (world : World σ) : Prop where
  once : ((groupResults (withLua actionOfNumber answer host) group runId world).map Prod.fst).Perm group.packages
  records : (runTaskGroup (withLua actionOfNumber answer host) group runId world).1 =
    (groupResults (withLua actionOfNumber answer host) group runId world).map (reportOf runId)
  failed : ∀ entries, rawAnswer answer host group runId world = some entries →
    ∀ package ∈ group.packages, ∀ entry ∈ packagesFromObject actionOfNumber entries,
      NamesOnly group.packages entry package →
        ∀ outcome, (package, outcome) ∈ groupResults (withLua actionOfNumber answer host) group runId world →
          outcome.status = .failed

variable {actionOfNumber answer host} {group : TaskGroup}

theorem any_toPackage (answered : List AnsweredPackage) (package : Package) :
    ((answered.filterMap AnsweredPackage.toPackage).any fun other => samePackage other package) = true ↔
      ∃ entry ∈ answered, entry.Is package := by
  have same : ∀ (entry : AnsweredPackage) (action : ActionType), entry.action = some action →
      (samePackage { action := action, system := entry.system, name := entry.name, version := entry.version
                     sourcePath := entry.sourcePath, localTarget := entry.localTarget, flags := entry.flags
                     directRequest := entry.directRequest } package = true ↔ entry.Is package) := by
    intro entry action known
    simp only [samePackage, AnsweredPackage.Is, known, Bool.and_eq_true, beq_iff_eq, Option.some.injEq, and_assoc]
  simp only [List.any_eq_true, List.mem_filterMap, AnsweredPackage.toPackage, Option.map_eq_some_iff]
  constructor
  · intro found
    obtain ⟨_, ⟨entry, member, action, known, rfl⟩, is_⟩ := found
    exact ⟨entry, member, (same entry action known).mp is_⟩
  · intro found
    obtain ⟨entry, member, is_⟩ := found
    exact ⟨_, ⟨entry, member, package.action, is_.1, rfl⟩, (same entry package.action is_.1).mpr is_⟩

/-- An answer is there when the call failed and the plugin could be asked. -/
theorem rawAnswer_eq_some {entries : List LuaEntry} {runId : String} {world : World σ}
    (answered : rawAnswer answer host group runId world = some entries) :
    ∃ middle : World σ,
      (∀ actionOfNumber, groupResults (withLua actionOfNumber answer host) group runId world =
        settledResults (withLua actionOfNumber answer host) group middle) ∧
      (actionUsesMissingPackageFilter group.action &&
        host.hasPlugin (takeUnavailable host group middle).2.plugins group.system) = true ∧
      (answer group.system group.packages (takeUnavailable host group middle).2.plugins).1 = .list entries := by
  unfold rawAnswer at answered
  cases updated : world.journal.updateItemsStatus host.actionCode runId group.packages .running "" with
  | none => simp [updated] at answered
  | some journal =>
      simp only [updated, Option.ite_none_left_eq_some, Option.ite_none_right_eq_some] at answered
      obtain ⟨failed, asks, given⟩ := answered
      refine ⟨(dispatchTaskGroupToPlugin host group { world with journal := journal }).2, ?_, asks, ?_⟩
      · intro actionOfNumber
        have running : world.journal.updateItemsStatus (withLua actionOfNumber answer host).actionCode runId
            group.packages .running "" = some journal := updated
        have refused : (dispatchTaskGroupToPlugin (withLua actionOfNumber answer host) group
            { world with journal := journal }).1 = false := (Bool.not_eq_true _).mp failed
        simp only [groupResults, running, refused, Bool.false_eq_true, if_false]
        rfl
      · split at given
        · cases given
        · rename_i list
          cases given
          exact list

/-- A failed call leaves a package failed when it is reported, and done otherwise. -/
theorem settledResults_failed_iff {entries : List LuaEntry} {middle : World σ}
    (requests : Requests group.action group.packages)
    (asks : (actionUsesMissingPackageFilter group.action &&
      host.hasPlugin (takeUnavailable host group middle).2.plugins group.system) = true)
    (list : (answer group.system group.packages (takeUnavailable host group middle).2.plugins).1 = .list entries)
    {package : Package} (listed : package ∈ group.packages) :
    (∀ outcome, (package, outcome) ∈ settledResults (withLua actionOfNumber answer host) group middle →
      outcome.status = .failed) ↔ Reported group.packages (packagesFromObject actionOfNumber entries) package := by
  rw [← completed_is_iff requests _ listed, ← any_toPackage]
  have parts : (splitByMissing (withLua actionOfNumber answer host) group (takeUnavailable host group middle).2).1 =
      (group.packages.filter fun package => !((inheritMissingPackageFields group.packages
          (packagesFromObject actionOfNumber entries)).filterMap AnsweredPackage.toPackage).any
            fun other => samePackage other package,
        group.packages.filter fun package => ((inheritMissingPackageFields group.packages
          (packagesFromObject actionOfNumber entries)).filterMap AnsweredPackage.toPackage).any
            fun other => samePackage other package) := by
    have asksLua : (actionUsesMissingPackageFilter group.action &&
        (withLua actionOfNumber answer host).hasPlugin (takeUnavailable host group middle).2.plugins group.system) =
          true := asks
    unfold splitByMissing
    rw [if_pos asksLua]
    simp only [withLua, list, getMissingPackages]
  have unavailable : takeUnavailable (withLua actionOfNumber answer host) group middle =
      takeUnavailable host group middle := rfl
  rw [settledResults, unavailable, parts]
  generalize hmissing : (((inheritMissingPackageFields group.packages
    (packagesFromObject actionOfNumber entries)).filterMap AnsweredPackage.toPackage).any
      fun other => samePackage other package) = missing
  simp only [List.mem_append, List.mem_map, List.mem_filter, Prod.mk.injEq]
  constructor
  · intro failed
    cases missing with
    | true => rfl
    | false =>
        have done := failed { status := .success } (Or.inl ⟨package, ⟨listed, by rw [hmissing]; rfl⟩, rfl, rfl⟩)
        cases done
  · intro reported outcome found
    rcases found with ⟨other, ⟨_, absent⟩, rfl, rfl⟩ | ⟨other, _, rfl, rfl⟩
    · rw [hmissing, reported] at absent
      cases absent
    · rfl

/-- With an answer in hand a package is recorded as failed exactly when it is reported. -/
theorem failed_iff_reported {entries : List LuaEntry} {runId : String} {world : World σ}
    (requests : Requests group.action group.packages)
    (answered : rawAnswer answer host group runId world = some entries) {package : Package}
    (listed : package ∈ group.packages) :
    (∀ outcome, (package, outcome) ∈ groupResults (withLua actionOfNumber answer host) group runId world →
      outcome.status = .failed) ↔ Reported group.packages (packagesFromObject actionOfNumber entries) package := by
  obtain ⟨middle, settled, asks, list⟩ := rawAnswer_eq_some answered
  rw [settled actionOfNumber]
  exact settledResults_failed_iff requests asks list listed

/-- Records tell what the plugin reported exactly when no package that is named alone is
taken by an entry of another action. -/
theorem classified_iff {runId : String} {world : World σ} (shared : group.usesLocalTarget = false)
    (system : ∀ package ∈ group.packages, package.system = group.system)
    (requests : Requests group.action group.packages) :
    ClassifiedAsAnswered actionOfNumber answer host group runId world ↔
      ∀ entries, rawAnswer answer host group runId world = some entries →
        ∀ package ∈ group.packages,
          (∃ entry ∈ packagesFromObject actionOfNumber entries, NamesOnly group.packages entry package) →
            Reported group.packages (packagesFromObject actionOfNumber entries) package := by
  have uniform : Uniform group := fun package listed => ⟨requests.uniform package listed, system package listed⟩
  constructor
  · intro classified entries answered package listed named
    obtain ⟨entry, member, alone⟩ := named
    exact (failed_iff_reported requests answered listed).mp
      (classified.failed entries answered package listed entry member alone)
  · intro reported
    refine ⟨groupResults_perm runId world, runTaskGroup_results uniform shared runId world, ?_⟩
    intro entries answered package listed entry member alone
    exact (failed_iff_reported requests answered listed).mpr
      (reported entries answered package listed ⟨entry, member, alone⟩)

/-- An `ensure` of two packages that dnf could not carry out. -/
def ensureGroup : TaskGroup where
  action := .ensure
  system := "dnf"
  packages := [{ action := .ensure, system := "dnf", name := "gcc" }, { action := .ensure, system := "dnf", name := "vim" }]

def ensureWorld : World Unit where
  plugins := ()
  journal := plannedJournal ensureGroup.packages

def failingHost : Host Unit := { obligingHost (fun _ => false) with perform := fun _ world => (false, world) }

/-- The plugin answers with the name of one package and an action. -/
def answerVim (action : LuaAction) (_ : String) (_ : List Package) (plugins : Unit) : MissingAnswer × Unit :=
  (.list [.other, .table action none (some "vim") none none none none], plugins)

theorem ensureGroup_requests : Requests ensureGroup.action ensureGroup.packages where
  uniform := by simp [ensureGroup]
  distinct := by
    simp only [ensureGroup, List.pairwise_cons, List.mem_singleton, forall_eq, List.not_mem_nil, false_implies,
      implies_true, List.Pairwise.nil, and_true]
    decide

theorem classified_vim :
    ClassifiedAsAnswered (fun _ => none) (answerVim .absent) failingHost ensureGroup "7" ensureWorld := by
  refine (classified_iff rfl (by simp [ensureGroup]) ensureGroup_requests).mpr ?_
  intro entries answered package listed named
  have given : rawAnswer (answerVim .absent) failingHost ensureGroup "7" ensureWorld =
      some [.other, .table .absent none (some "vim") none none none none] := by decide +kernel
  rw [given, Option.some.injEq] at answered
  subst answered
  have read : packagesFromObject (fun _ => none) [.other, .table .absent none (some "vim") none none none none] =
      [{ name := "vim" }] := rfl
  rw [read] at named ⊢
  obtain ⟨entry, member, alone⟩ := named
  obtain rfl := List.mem_singleton.mp member
  refine reported_of_namesOnly listed member alone rfl fun other otherMember => ?_
  obtain rfl := List.mem_singleton.mp otherMember
  exact Or.inl rfl

/-- An entry that says `install` of a package to be ensured makes it a success. -/
theorem install_entry_hides_failure :
    groupResults (withLua (fun _ => none) (answerVim (.text "install")) failingHost) ensureGroup "7" ensureWorld =
      ensureGroup.packages.map (fun package => (package, { status := .success })) ∧
    ¬ ClassifiedAsAnswered (fun _ => none) (answerVim (.text "install")) failingHost ensureGroup "7" ensureWorld := by
  have ended : groupResults (withLua (fun _ => none) (answerVim (.text "install")) failingHost) ensureGroup "7"
      ensureWorld = ensureGroup.packages.map (fun package => (package, { status := .success })) := by decide +kernel
  refine ⟨ended, fun classified => ?_⟩
  have failed := classified.failed [.other, .table (.text "install") none (some "vim") none none none none]
    (by decide +kernel) { action := .ensure, system := "dnf", name := "vim" } (by simp [ensureGroup])
    { action := some .install, name := "vim" } (by decide +kernel)
    (by simp [NamesOnly, AnsweredPackage.Names, ensureGroup]) { status := .success } (by
      rw [ended]
      simp [ensureGroup])
  cases failed

end Answers

end ReqPack.Executor
