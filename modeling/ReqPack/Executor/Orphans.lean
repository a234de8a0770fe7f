import ReqPack.Executor.Frames

/-! # Which removals the clean-up dispatches

`removeOrphanedDependencies` takes an entry without owners for an orphan.  Owners
are recorded only for what this executor installed, so an empty list may also mean
that nobody ever looked.  What a round removes is safe as long as the owner lists
it goes by are complete.
-/

namespace ReqPack.Executor

open ReqPack.Data ReqPack.Core ReqPack.Scheduler

variable {σ : Type} {host : Host σ} {config : ExecutionConfig}

/-- An installed entry as a package. -/
def entryPackage (entry : InstalledEntry) : Package :=
  { system := entry.system, name := entry.name, version := entry.version }

/-- Another entry of the installed state that the plugins say needs this one. -/
def RequiredByOther (host : Host σ) (plugins : σ) (installedState : List InstalledEntry)
    (entry : InstalledEntry) : Prop :=
  ∃ other ∈ installedState, sameEntryKey other entry = false ∧
    ∃ requirement ∈ normalizedRequirements host plugins (entryPackage other),
      dependencyMatchesPackage requirement (entryPackage entry) = true

/-- The package had another package as its owner at some time. -/
def OnceOwned (world : World σ) (entry : InstalledEntry) : Prop :=
  (entry.system, entry.name, entry.version) ∈ world.ownedOnce

/-- Removing the package in this world takes away an entry that nothing else needs
and that was there for another package once. -/
def SafeRemoval (host : Host σ) (plugins : σ) (world : World σ) (package : Package) : Prop :=
  ∃ entry ∈ world.installed.loadInstalledState,
    entry.system = package.system ∧ entry.name = package.name ∧ entry.version = package.version ∧
    ¬ RequiredByOther host plugins world.installed.loadInstalledState entry ∧ OnceOwned world entry

/-- Every other entry that needs this one stands in its list of owners. -/
def OwnersComplete (host : Host σ) (plugins : σ) (installedState : List InstalledEntry)
    (entry : InstalledEntry) : Prop :=
  ∀ other ∈ installedState, sameEntryKey other entry = false →
    ∀ requirement ∈ normalizedRequirements host plugins (entryPackage other),
      dependencyMatchesPackage requirement (entryPackage entry) = true →
      installedPackageOwnerId (entryPackage other) ∈ entry.owners

/-- Where the requirements of removed packages lead to an empty list of owners, the
list is complete and was not always empty. -/
def OwnersFaithful (host : Host σ) (records : List TransactionRecord) (world : World σ) : Prop :=
  ∀ record ∈ records, isSuccessfulRemoval record = true →
    ∀ dependency ∈ normalizedRequirements host world.plugins (removedPackage record),
      ∀ entry ∈ findInstalledDependency world.installed.loadInstalledState dependency,
      entry.owners = [] →
      OwnersComplete host world.plugins world.installed.loadInstalledState entry ∧ OnceOwned world entry

section Decidability

instance (plugins : σ) (installedState : List InstalledEntry) (entry : InstalledEntry) :
    Decidable (RequiredByOther host plugins installedState entry) :=
  inferInstanceAs (Decidable (∃ other ∈ installedState, sameEntryKey other entry = false ∧
    ∃ requirement ∈ normalizedRequirements host plugins (entryPackage other),
      dependencyMatchesPackage requirement (entryPackage entry) = true))

instance (plugins : σ) (installedState : List InstalledEntry) (entry : InstalledEntry) :
    Decidable (OwnersComplete host plugins installedState entry) :=
  inferInstanceAs (Decidable (∀ other ∈ installedState, sameEntryKey other entry = false →
    ∀ requirement ∈ normalizedRequirements host plugins (entryPackage other),
      dependencyMatchesPackage requirement (entryPackage entry) = true →
      installedPackageOwnerId (entryPackage other) ∈ entry.owners))

instance (world : World σ) (entry : InstalledEntry) : Decidable (OnceOwned world entry) :=
  inferInstanceAs (Decidable ((entry.system, entry.name, entry.version) ∈ world.ownedOnce))

instance (records : List TransactionRecord) (world : World σ) :
    Decidable (OwnersFaithful host records world) :=
  inferInstanceAs (Decidable (∀ record ∈ records, isSuccessfulRemoval record = true →
    ∀ dependency ∈ normalizedRequirements host world.plugins (removedPackage record),
      ∀ entry ∈ findInstalledDependency world.installed.loadInstalledState dependency,
      entry.owners = [] →
      OwnersComplete host world.plugins world.installed.loadInstalledState entry ∧ OnceOwned world entry))

end Decidability

section Decision

variable {installedState : List InstalledEntry}

theorem findInstalledDependency_spec {dependency : Package} {entry : InstalledEntry}
    (found : findInstalledDependency installedState dependency = some entry) :
    entry ∈ installedState ∧ entry.system = dependency.system ∧ entry.name = dependency.name := by
  have listed : entry ∈ installedState.filter fun entry =>
      entry.system == dependency.system && entry.name == dependency.name := by
    simp only [findInstalledDependency] at found
    split at found
    · split at found
      · rename_i only single
        cases found
        rw [single]
        exact List.mem_singleton_self _
      · simp at found
    · exact List.mem_of_find?_eq_some found
  simp only [List.mem_filter, Bool.and_eq_true, beq_iff_eq] at listed
  exact ⟨listed.1, listed.2.1, listed.2.2⟩

theorem orphanOf_spec {dependency package : Package}
    (decided : orphanOf installedState dependency = some package) :
    ∃ entry, findInstalledDependency installedState dependency = some entry ∧ entry.owners = [] ∧
      package = { dependency with action := .remove, version := entry.version } := by
  unfold orphanOf at decided
  cases found : findInstalledDependency installedState dependency with
  | none => simp [found] at decided
  | some entry =>
      simp only [found, Option.ite_none_right_eq_some, List.isEmpty_iff, Option.some.injEq] at decided
      exact ⟨entry, rfl, decided.1, decided.2.symm⟩

theorem mem_of_mem_queueOrphan {packages : List Package} {package : Package}
    (member : package ∈ packages.foldl queueOrphan []) : package ∈ packages := by
  induction packages using List.reverseRecOn with
  | nil => exact member
  | append_singleton packages last ih =>
      rw [List.foldl_concat] at member
      unfold queueOrphan at member
      split at member
      · exact List.mem_append_left _ (ih member)
      · rcases List.mem_append.mp member with old | new
        · exact List.mem_append_left _ (ih old)
        · exact List.mem_append_right _ new

/-- A removal that a round decides on goes back to an entry without owners that a
removed package required. -/
theorem mem_orphanedPackages {plugins : σ} {records : List TransactionRecord} {package : Package}
    (member : package ∈ orphanedPackages host plugins installedState records) :
    ∃ record ∈ records, isSuccessfulRemoval record = true ∧
      ∃ dependency ∈ normalizedRequirements host plugins (removedPackage record), ∃ entry,
        findInstalledDependency installedState dependency = some entry ∧ entry.owners = [] ∧
        package = { dependency with action := .remove, version := entry.version } := by
  have decided := mem_of_mem_queueOrphan member
  rw [List.mem_filterMap] at decided
  obtain ⟨dependency, required, orphan⟩ := decided
  obtain ⟨record, listed, needs⟩ := List.mem_flatMap.mp required
  obtain ⟨entry, found, unowned, same⟩ := orphanOf_spec orphan
  rw [List.mem_filter] at listed
  exact ⟨record, listed.1, listed.2, dependency, needs, entry, found, unowned, same⟩

theorem OwnersFaithful.safeRemoval {records : List TransactionRecord} {world : World σ}
    (faithful : OwnersFaithful host records world) {package : Package}
    (member : package ∈ orphanedPackages host world.plugins world.installed.loadInstalledState records) :
    SafeRemoval host world.plugins world package := by
  obtain ⟨record, listed, removal, dependency, required, entry, found, unowned, rfl⟩ :=
    mem_orphanedPackages member
  obtain ⟨present, system, name⟩ := findInstalledDependency_spec found
  obtain ⟨complete, once⟩ := faithful record listed removal dependency required entry found unowned
  refine ⟨entry, present, system, name, rfl, fun needed => ?_, once⟩
  obtain ⟨other, listed, apart, requirement, named, needs⟩ := needed
  have owner := complete other listed apart requirement named needs
  simp [unowned] at owner

end Decision

section Rounds

/-- The removal groups a round decides on. -/
def roundGroups (host : Host σ) (records : List TransactionRecord) (world : World σ) : List TaskGroup :=
  orphanGroups (orphanedPackages host world.plugins world.installed.loadInstalledState records)

/-- The records and worlds in which the rounds of a clean-up start. -/
def roundsOf (host : Host σ) (config : ExecutionConfig) :
    Nat → List TransactionRecord → World σ → List (List TransactionRecord × World σ)
  | 0, _, _ => []
  | fuel + 1, records, world =>
      if tracksInstalled config then
        let round := orphanRound host config records world
        (records, world) :: if round.1.isEmpty then [] else roundsOf host config fuel round.1 round.2
      else []

/-- A round that starts in `start` executes the group in the world `before`. -/
def RoundExecutes (host : Host σ) (config : ExecutionConfig) (records : List TransactionRecord)
    (start before : World σ) (group : TaskGroup) : Prop :=
  ∃ earlier later, roundGroups host records start = earlier ++ group :: later ∧
    before = (removeOrphanGroups host config earlier start).2

/-- The package was handed to a plugin or to the gateway between two worlds. -/
def Dispatched (before after : World σ) (package : Package) : Prop :=
  (∃ entry ∈ after.calls.drop before.calls.length, package ∈ entry.1.packages) ∨
    ∃ entry ∈ after.gatewayCalls.drop before.gatewayCalls.length, package ∈ entry.1.2.2

instance (before after : World σ) (package : Package) : Decidable (Dispatched before after package) :=
  inferInstanceAs (Decidable
    ((∃ entry ∈ after.calls.drop before.calls.length, package ∈ entry.1.packages) ∨
      ∃ entry ∈ after.gatewayCalls.drop before.gatewayCalls.length, package ∈ entry.1.2.2))

theorem Dispatched.split {first middle last : World σ} {package : Package}
    (dispatched : Dispatched first last package) (earlier : Extends first middle)
    (later : Extends middle last) : Dispatched first middle package ∨ Dispatched middle last package := by
  obtain ⟨made, calls⟩ := earlier.calls
  obtain ⟨more, calls'⟩ := later.calls
  obtain ⟨sent, gatewayCalls⟩ := earlier.gatewayCalls
  obtain ⟨further, gatewayCalls'⟩ := later.gatewayCalls
  rcases dispatched with ⟨entry, new, named⟩ | ⟨entry, new, named⟩
  · rw [← calls', ← calls, List.append_assoc, List.drop_left] at new
    rcases List.mem_append.mp new with first | second
    · exact Or.inl (Or.inl ⟨entry, by rw [← calls, List.drop_left]; exact first, named⟩)
    · exact Or.inr (Or.inl ⟨entry, by rw [← calls', List.drop_left]; exact second, named⟩)
  · rw [← gatewayCalls', ← gatewayCalls, List.append_assoc, List.drop_left] at new
    rcases List.mem_append.mp new with first | second
    · exact Or.inl (Or.inr ⟨entry, by rw [← gatewayCalls, List.drop_left]; exact first, named⟩)
    · exact Or.inr (Or.inr ⟨entry, by rw [← gatewayCalls', List.drop_left]; exact second, named⟩)

theorem not_dispatched_of_touches {before after : World σ} (touches : TouchesHistory before after)
    (package : Package) : ¬ Dispatched before after package := by
  unfold TouchesHistory at touches
  rw [touches]
  simp [Dispatched]

/-- A call names the packages of its group, or a path instead. -/
theorem CallFor.packages_eq {group : TaskGroup} {call : PluginCall} (called : CallFor group call) :
    call.packages = group.packages ∨ call.packages = [] := by
  obtain ⟨name, supportsPack, _, made⟩ := called
  unfold pluginCallFor at made
  repeat' split at made
  all_goals simp only [Option.some.injEq, reduceCtorEq] at made
  all_goals simp [← made, PluginCall.packages]

theorem executeTaskGroup_dispatched {runId : String} {group : TaskGroup} {world : World σ}
    {package : Package}
    (dispatched : Dispatched world (executeTaskGroup host config runId group world).2 package) :
    package ∈ group.packages := by
  have frame : ExecutionFrame host config runId group world _ := executeTaskGroup_frame group world
  obtain ⟨made, calls, callFor⟩ := frame.calls
  obtain ⟨sent, gatewayCalls, requests⟩ := frame.gatewayCalls
  rcases dispatched with ⟨entry, new, named⟩ | ⟨entry, new, named⟩
  · rw [calls, List.drop_left] at new
    rcases (callFor entry new).1.packages_eq with same | none
    · exact same ▸ named
    · simp [none] at named
  · rw [gatewayCalls, List.drop_left] at new
    rw [requests entry new] at named
    exact named

theorem removeOrphanGroups_concat (host : Host σ) (config : ExecutionConfig) (groups : List TaskGroup)
    (group : TaskGroup) (world : World σ) :
    (removeOrphanGroups host config (groups ++ [group]) world).2 =
      (executeTaskGroup host config "" group (removeOrphanGroups host config groups world).2).2 := by
  simp [removeOrphanGroups]

/-- Executing removal groups leaves the installed state as it is. -/
theorem removeOrphanGroups_installed (host : Host σ) (config : ExecutionConfig) (groups : List TaskGroup)
    (world : World σ) :
    (removeOrphanGroups host config groups world).2.installed = world.installed ∧
      (removeOrphanGroups host config groups world).2.ownedOnce = world.ownedOnce := by
  induction groups using List.reverseRecOn with
  | nil => exact ⟨rfl, rfl⟩
  | append_singleton groups group ih =>
      rw [removeOrphanGroups_concat]
      have frame : ExecutionFrame host config "" group (removeOrphanGroups host config groups world).2 _ :=
        executeTaskGroup_frame group _
      exact ⟨frame.installed.trans ih.1, frame.ownedOnce.trans ih.2⟩

theorem removeOrphanGroups_dispatched {groups : List TaskGroup} {world : World σ} {package : Package}
    (dispatched : Dispatched world (removeOrphanGroups host config groups world).2 package) :
    ∃ earlier group later, groups = earlier ++ group :: later ∧ package ∈ group.packages := by
  induction groups using List.reverseRecOn with
  | nil =>
      exact absurd dispatched (not_dispatched_of_touches (TouchesHistory.refl world) package)
  | append_singleton groups group ih =>
      rw [removeOrphanGroups_concat] at dispatched
      rcases dispatched.split (removeOrphanGroups_extends host config groups world)
        (executeTaskGroup_extends host config "" group _) with before | now
      · obtain ⟨earlier, found, later, rfl, member⟩ := ih before
        exact ⟨earlier, found, later ++ [group], by simp, member⟩
      · exact ⟨groups, group, [], rfl, executeTaskGroup_dispatched now⟩

/-- Whatever a clean-up dispatches, one of its rounds executed a group that holds it. -/
theorem removeOrphanedDependencies_dispatched {fuel : Nat} {records removed : List TransactionRecord}
    {world after : World σ}
    (cleaned : removeOrphanedDependencies host config fuel records world = some (removed, after))
    {package : Package} (dispatched : Dispatched world after package) :
    ∃ round ∈ roundsOf host config fuel records world, ∃ before group,
      RoundExecutes host config round.1 round.2 before group ∧ package ∈ group.packages := by
  induction fuel generalizing records removed world after with
  | zero => simp [removeOrphanedDependencies] at cleaned
  | succ fuel ih =>
      simp only [removeOrphanedDependencies] at cleaned
      cases tracked : tracksInstalled config with
      | false =>
          simp only [tracked, Bool.false_eq_true, if_false, Option.some.injEq, Prod.mk.injEq] at cleaned
          rw [← cleaned.2] at dispatched
          exact absurd dispatched (not_dispatched_of_touches (TouchesHistory.refl world) package)
      | true =>
          simp only [tracked, if_true] at cleaned
          simp only [roundsOf, tracked, if_true]
          -- Within the first round only its removal groups make calls.
          have first : Dispatched world (orphanRound host config records world).2 package →
              ∃ before group, RoundExecutes host config records world before group ∧
                package ∈ group.packages := by
            intro inRound
            have history := orphanRound_touches host config records world
            rcases inRound.split (removeOrphanGroups_extends host config _ world) history.extends with
              removal | silent
            · obtain ⟨earlier, group, later, split, member⟩ := removeOrphanGroups_dispatched removal
              exact ⟨_, group, ⟨earlier, later, split, rfl⟩, member⟩
            · exact absurd silent (not_dispatched_of_touches history package)
          cases nothing : (orphanRound host config records world).1.isEmpty with
          | true =>
              simp only [nothing, if_true, Option.some.injEq] at cleaned
              rw [cleaned] at first
              exact ⟨(records, world), List.mem_cons_self, first dispatched⟩
          | false =>
              simp only [nothing, Bool.false_eq_true, if_false, Option.map_eq_some_iff] at cleaned
              obtain ⟨⟨nested, final⟩, deeper, same⟩ := cleaned
              cases same
              rcases dispatched.split (orphanRound_extends host config records world)
                (removeOrphanedDependencies_extends deeper) with inRound | behind
              · exact ⟨(records, world), List.mem_cons_self, first inRound⟩
              · obtain ⟨round, reached, executes⟩ := ih deeper behind
                exact ⟨round, by simp [reached], executes⟩

theorem RoundExecutes.safeRemoval {records : List TransactionRecord} {start before : World σ}
    {group : TaskGroup} (executes : RoundExecutes host config records start before group)
    (faithful : OwnersFaithful host records start) {package : Package} (member : package ∈ group.packages) :
    SafeRemoval host start.plugins before package := by
  obtain ⟨earlier, later, split, rfl⟩ := executes
  have grouped : group ∈ roundGroups host records start := by
    rw [split]
    simp
  have decided : package ∈
      orphanedPackages host start.plugins start.installed.loadInstalledState records := by
    simp only [roundGroups, orphanGroups, List.mem_map] at grouped
    obtain ⟨system, _, rfl⟩ := grouped
    exact List.mem_of_mem_filter member
  obtain ⟨installed, ownedOnce⟩ := removeOrphanGroups_installed host config earlier start
  have safe := faithful.safeRemoval decided
  unfold SafeRemoval OnceOwned at safe ⊢
  rw [installed, ownedOnce]
  exact safe

end Rounds

section Runs

/-- Every pip package needs the interpreter of the distribution. -/
def pipHost : Host Unit :=
  { obligingHost fun _ => false with
    getRequirements := fun _ system =>
      if system = "pip" then [{ system := "apt", name := "python" }] else [] }

def pythonEntry : InstalledEntry := { system := "apt", name := "python", version := "3" }

/-- The interpreter was installed for the package that has just been removed. -/
def lastUserRemoved : World Unit where
  plugins := ()
  installed := [pythonEntry]
  ownedOnce := [("apt", "python", "3")]

/-- The interpreter was there before, and another package still needs it. -/
def interpreterShared : World Unit where
  plugins := ()
  installed := [pythonEntry, { system := "pip", name := "numpy", version := "1" }]

def scipyRemoved : List TransactionRecord :=
  [{ system := "pip", action := .remove, packageName := "scipy", packageVersion := "1", status := .success }]

def pythonRemoval : Package := { action := .remove, system := "apt", name := "python", version := "3" }

end Runs

end ReqPack.Executor
