import ReqPack.Executor.Orphans
import ReqPack.Executor.Outcome
import ReqPack.Executor.Stages

/-! # How often a package is handed to a remove call

Three parts of a call remove packages: the recovery of an interrupted run, the
groups of the graph, and the rounds of the clean-up.  The rounds keep no list of
what was removed before; they go by the installed state alone, which the plugins
write.
-/

namespace ReqPack.Executor

open ReqPack.Data ReqPack.Core ReqPack.Scheduler

variable {σ : Type} {host : Host σ} {config : ExecutionConfig}

section Keys

/-- System, name and version. -/
def removalKey (package : Package) : String × String × String :=
  (package.system, package.name, package.version)

/-- The packages a call passes to `remove`. -/
def PluginCall.removed : PluginCall → List (String × String × String)
  | .remove _ _ packages => packages.map removalKey
  | _ => []

def removedIn (calls : List (PluginCall × Bool)) : List (String × String × String) :=
  calls.flatMap fun entry => entry.1.removed

/-- The packages passed to `remove` between two worlds. -/
def removedBetween (before after : World σ) : List (String × String × String) :=
  removedIn (after.calls.drop before.calls.length)

/-- The removals among some packages. -/
def removalKeys (packages : List Package) : List (String × String × String) :=
  (packages.filter fun package => isRemoveAction package.action).map removalKey

/-- The removals a group stands for. -/
def groupRemovals (group : TaskGroup) : List (String × String × String) :=
  if isRemoveAction group.action then group.packages.map removalKey else []

/-- Between two worlds nothing but these removals was handed over, none of them more
often than it stands in the list. -/
def Removes (before after : World σ) (allowed : List (String × String × String)) : Prop :=
  ∃ made, after.calls = before.calls ++ made ∧ (removedIn made).Sublist allowed

@[simp] theorem removedIn_append (first second : List (PluginCall × Bool)) :
    removedIn (first ++ second) = removedIn first ++ removedIn second :=
  List.flatMap_append

@[simp] theorem removalKeys_append (first second : List Package) :
    removalKeys (first ++ second) = removalKeys first ++ removalKeys second := by
  simp [removalKeys]

theorem removalKeys_flatMap {α : Type} (values : List α) (packages : α → List Package) :
    removalKeys (values.flatMap packages) = values.flatMap fun value => removalKeys (packages value) := by
  induction values with
  | nil => rfl
  | cons value values ih => rw [List.flatMap_cons, List.flatMap_cons, removalKeys_append, ih]

theorem groupRemovals_of_coherent {group : TaskGroup} (coherent : group.Coherent) :
    groupRemovals group = removalKeys group.packages := by
  unfold groupRemovals removalKeys
  cases removal : isRemoveAction group.action with
  | true =>
      rw [List.filter_eq_self.mpr fun package member => by rw [coherent.action package member, removal]]
      rfl
  | false =>
      rw [List.filter_eq_nil_iff.mpr fun package member => by rw [coherent.action package member, removal]; simp]
      rfl

theorem Removes.refl (world : World σ) : Removes world world [] := ⟨[], by simp, by simp [removedIn]⟩

theorem Removes.trans {first middle last : World σ} {earlier later : List (String × String × String)}
    (before : Removes first middle earlier) (behind : Removes middle last later) :
    Removes first last (earlier ++ later) := by
  obtain ⟨made, calls, sublist⟩ := before
  obtain ⟨more, calls', sublist'⟩ := behind
  refine ⟨made ++ more, by rw [calls', calls, List.append_assoc], ?_⟩
  rw [removedIn_append]
  exact sublist.append sublist'

theorem Removes.between {before after : World σ} {allowed : List (String × String × String)}
    (removes : Removes before after allowed) : (removedBetween before after).Sublist allowed := by
  obtain ⟨made, calls, sublist⟩ := removes
  rw [removedBetween, calls, List.drop_left]
  exact sublist

theorem removes_of_calls {before after : World σ} (same : after.calls = before.calls) :
    Removes before after [] :=
  ⟨[], by simp [same], by simp [removedIn]⟩

theorem TouchesHistory.removes {before after : World σ} (touches : TouchesHistory before after) :
    Removes before after [] := by
  apply removes_of_calls
  unfold TouchesHistory at touches
  rw [touches]

/-- Removals that were not handed over before keep the list free of repetitions. -/
theorem Removes.keeps_once {first middle last : World σ} {allowed : List (String × String × String)}
    (removes : Removes middle last allowed) (distinct : allowed.Nodup)
    (reached : first.calls <+: middle.calls) (once : (removedBetween first middle).Nodup)
    (fresh : ∀ key ∈ allowed, key ∉ removedBetween first middle) :
    (removedBetween first last).Nodup := by
  obtain ⟨made, calls, sublist⟩ := removes
  obtain ⟨front, grown⟩ := reached
  have split : removedBetween first last = removedBetween first middle ++ removedIn made := by
    simp only [removedBetween, calls, ← grown, List.append_assoc, List.drop_left, removedIn_append]
  rw [split]
  refine List.nodup_append.mpr ⟨once, distinct.sublist sublist, ?_⟩
  intro key earlier other later same
  subst other
  exact fresh key (sublist.subset later) earlier

theorem Removes.isPrefix {before after : World σ} {allowed : List (String × String × String)}
    (removes : Removes before after allowed) : before.calls <+: after.calls := by
  obtain ⟨made, calls, _⟩ := removes
  exact ⟨made, calls.symm⟩

end Keys

section Passes

/-- Executing a group makes no plugin call, or one call for the group. -/
theorem GroupExecution.one_call {runId : String} {group : TaskGroup} {world after : World σ}
    {records : List TransactionRecord}
    (execution : GroupExecution host config runId group world records after) :
    after.calls = world.calls ∨ ∃ call ok, CallFor group call ∧ after.calls = world.calls ++ [(call, ok)] := by
  cases execution with
  | nothing reason => exact Or.inl rfl
  | refused message system => exact Or.inl rfl
  | dryRun dry system => exact Or.inl rfl
  | gateway ok message plugins system => exact Or.inl rfl
  | dispatched wet system journal running ok middle _ _ dispatched settled =>
      have left : ∃ plugins, after = { middle with plugins := plugins } := by
        rcases settled with ⟨_, _, rfl⟩ | ⟨_, _, rfl⟩ | ⟨_, _, asked⟩
        · exact ⟨after.plugins, rfl⟩
        · exact ⟨after.plugins, rfl⟩
        · exact settleFailedCall_world asked
      obtain ⟨plugins, rfl⟩ := left
      rcases dispatchTaskGroupToPlugin_cases system dispatched with
        ⟨_, rfl, _⟩ | ⟨name, supportsPack, call, found, called, rfl⟩
      · exact Or.inl rfl
      · exact Or.inr ⟨call, ok, ⟨name, supportsPack, pluginOf_cases found, called⟩, rfl⟩

theorem CallFor.removed {group : TaskGroup} {call : PluginCall} (called : CallFor group call) :
    call.removed.Sublist (groupRemovals group) := by
  obtain ⟨name, supportsPack, _, made⟩ := called
  unfold pluginCallFor at made
  cases action : group.action with
  | remove =>
      simp only [action, Option.some.injEq] at made
      subst call
      simp [PluginCall.removed, groupRemovals, isRemoveAction, action]
  | install | ensure =>
      simp only [action] at made
      split at made <;> cases made <;> exact List.nil_sublist _
  | update =>
      simp only [action, Option.some.injEq] at made
      subst call
      exact List.nil_sublist _
  | pack =>
      simp only [action, Option.ite_none_right_eq_some, Option.some.injEq] at made
      obtain ⟨_, rfl⟩ := made
      exact List.nil_sublist _
  | _ => simp [action] at made

theorem executeTaskGroup_removes (host : Host σ) (config : ExecutionConfig) (runId : String)
    (group : TaskGroup) (world : World σ) :
    Removes world (executeTaskGroup host config runId group world).2 (groupRemovals group) := by
  rcases (executeTaskGroup_execution host config runId group world).one_call with
    same | ⟨call, ok, called, grown⟩
  · exact ⟨[], by simp [same], by simp [removedIn]⟩
  · exact ⟨[(call, ok)], grown, by simpa [removedIn] using called.removed⟩

theorem executeAlong_removes (host : Host σ) (config : ExecutionConfig) (runId : String)
    (plans : List TaskGroupPlan) (order : List Nat) (world : World σ) :
    Removes world (executeAlong plans (executeTaskGroup host config runId) order world)
      (order.flatMap fun index => groupRemovals (taskGroupOf plans index)) := by
  induction order generalizing world with
  | nil => exact .refl world
  | cons index order ih =>
      rw [List.flatMap_cons]
      exact (executeTaskGroup_removes host config runId _ world).trans (ih _)

theorem runInOrder_removes (host : Host σ) (config : ExecutionConfig) (runId : String)
    (stopOnFirstFailure : Bool) (groups : List TaskGroup) (world : World σ) :
    Removes world
      (runInOrder stopOnFirstFailure (executeTaskGroup host config runId) groups world).2
      (groups.flatMap groupRemovals) := by
  induction groups generalizing world with
  | nil => exact .refl world
  | cons group groups ih =>
      have first := executeTaskGroup_removes host config runId group world
      rw [List.flatMap_cons]
      simp only [runInOrder]
      split
      · obtain ⟨made, calls, sublist⟩ := first
        exact ⟨made, calls, sublist.trans (List.sublist_append_left _ _)⟩
      · exact first.trans (ih _)

theorem removeOrphanGroups_removes (host : Host σ) (config : ExecutionConfig) (groups : List TaskGroup)
    (world : World σ) :
    Removes world (removeOrphanGroups host config groups world).2 (groups.flatMap groupRemovals) := by
  induction groups using List.reverseRecOn with
  | nil => exact .refl world
  | append_singleton groups group ih =>
      rw [removeOrphanGroups_concat, List.flatMap_append, List.flatMap_singleton]
      exact ih.trans (executeTaskGroup_removes host config "" group _)

/-- The groups of a plan hold what the groups it was made from hold. -/
theorem flatMap_taskGroupOf (platform : Platform) (resolvePluginName : String → String)
    (groups : List TaskGroup) (graph : Option Graph) :
    ((List.range (createPlans platform resolvePluginName groups graph).length).flatMap fun index =>
      groupRemovals (taskGroupOf (createPlans platform resolvePluginName groups graph) index)) =
      groups.flatMap groupRemovals := by
  have tasks := createPlans_tasks platform resolvePluginName groups graph
  generalize createPlans platform resolvePluginName groups graph = plans at tasks
  have walked : (List.range plans.length).map (taskGroupOf plans) = plans.map (·.taskGroup) := by
    apply List.ext_getElem
    · simp
    · intro index bound inside
      have known : index < plans.length := by simpa using bound
      simp [taskGroupOf, List.getD_eq_getElem?_getD, known]
  have blind : ∀ group : TaskGroup, groupRemovals group.task = groupRemovals group := fun _ => rfl
  calc (List.range plans.length).flatMap (fun index => groupRemovals (taskGroupOf plans index))
      = (plans.map (·.taskGroup)).flatMap groupRemovals := by rw [← walked, List.flatMap_map]
    _ = (planTasks plans).flatMap groupRemovals := by
        simp only [planTasks, List.flatMap_map, blind]
    _ = groups.flatMap groupRemovals := by
        rw [tasks]
        simp only [List.flatMap_map, blind]

/-- A run of the scheduler removes what its groups stand for, each at most once. -/
theorem run_removes {groups : List TaskGroup} {graph : Graph} {events : List SchedulerEvent}
    {runId : String} {world : World σ} {run : RunResult (World σ)}
    (ran : ParallelTaskScheduler.run config.stopOnFirstFailure (executeTaskGroup host config runId)
      config.platform host.resolvePluginName groups (some graph) config.jobs events world = some run) :
    ∃ allowed, Removes world run.world allowed ∧ allowed.Subperm (groups.flatMap groupRemovals) := by
  obtain ⟨_, consistent, _⟩ := createPlans_spec config.platform host.resolvePluginName groups graph
  obtain ⟨order, once, bounded, reached⟩ := runPlans_serial consistent ran
  refine ⟨_, reached ▸ executeAlong_removes host config runId _ order world, ?_⟩
  rw [← flatMap_taskGroupOf config.platform host.resolvePluginName groups (some graph)]
  exact subperm_flatMap_range once bounded _

end Passes

section Rounds

def entryKey (entry : InstalledEntry) : String × String × String :=
  (entry.system, entry.name, entry.version)

/-- The removals that records report as done. -/
def recordedRemovals (records : List TransactionRecord) : List (String × String × String) :=
  (records.filter isSuccessfulRemoval).map fun record =>
    (record.system, record.packageName, record.packageVersion)

/-- No entry without owners that a removed package required was tried before. -/
def Untried (host : Host σ) (tried : List (String × String × String)) (records : List TransactionRecord)
    (world : World σ) : Prop :=
  ∀ record ∈ records, isSuccessfulRemoval record = true →
    ∀ dependency ∈ normalizedRequirements host world.plugins (removedPackage record),
      ∀ entry ∈ findInstalledDependency world.installed.loadInstalledState dependency,
      entry.owners = [] → entryKey entry ∉ tried

/-- Every round starts in a state that holds no such entry: none that was handed to a
remove call since `start`, and none whose removal was recorded. -/
def RoundsUntried (host : Host σ) (start : World σ) :
    List (String × String × String) → List (List TransactionRecord × World σ) → Prop
  | _, [] => True
  | recorded, round :: rounds =>
      Untried host (removedBetween start round.2 ++ (recorded ++ recordedRemovals round.1)) round.1 round.2 ∧
        RoundsUntried host start (recorded ++ recordedRemovals round.1) rounds

variable {records : List TransactionRecord} {world start : World σ}

theorem nodup_queueOrphan (packages : List Package) :
    ((packages.foldl queueOrphan []).map removalKey).Nodup := by
  have keys : ((packages.foldl queueOrphan []).map packageIdentityKey).Nodup := by
    induction packages using List.reverseRecOn with
    | nil => exact List.nodup_nil
    | append_singleton packages last ih =>
        rw [List.foldl_concat]
        unfold queueOrphan
        split
        · exact ih
        · rename_i absent
          rw [List.map_append, List.map_singleton, ← List.concat_eq_append]
          refine List.Nodup.concat (fun queued => absent ?_) ih
          obtain ⟨other, member, same⟩ := List.mem_map.mp queued
          exact List.any_eq_true.mpr ⟨other, member, by simpa using same⟩
  have joined : packageIdentityKey =
      (fun key : String × String × String => key.1 ++ "\n" ++ key.2.1 ++ "\n" ++ key.2.2) ∘ removalKey := rfl
  rw [joined, ← List.map_map] at keys
  exact List.Nodup.of_map _ keys

/-- The removal groups of a round hold the removals it decided on. -/
theorem roundGroups_removals (host : Host σ) (records : List TransactionRecord) (world : World σ) :
    ((roundGroups host records world).flatMap groupRemovals).Perm
      ((orphanedPackages host world.plugins world.installed.loadInstalledState records).map removalKey) := by
  unfold roundGroups
  generalize orphanedPackages host world.plugins world.installed.loadInstalledState records = packages
  have systems := stableSort_perm textLess (packages.map (·.system)).dedup
  have binned : ((stableSort textLess (packages.map (·.system)).dedup).flatMap fun system =>
      packages.filter fun package => package.system == system).Perm packages :=
    perm_bins (systems.nodup_iff.mpr (List.nodup_dedup _)) fun package member =>
      systems.mem_iff.2 (List.mem_dedup.mpr (List.mem_map_of_mem member))
  have flat : (orphanGroups packages).flatMap groupRemovals =
      ((stableSort textLess (packages.map (·.system)).dedup).flatMap fun system =>
        packages.filter fun package => package.system == system).map removalKey := by
    simp [orphanGroups, groupRemovals, isRemoveAction, List.flatMap_map, List.map_flatMap]
  rw [flat]
  exact binned.map removalKey

/-- A round hands over what it decided on, each package once. -/
theorem orphanRound_removes (host : Host σ) (config : ExecutionConfig) (records : List TransactionRecord)
    (world : World σ) :
    Removes world (orphanRound host config records world).2
        ((roundGroups host records world).flatMap groupRemovals) ∧
      ((roundGroups host records world).flatMap groupRemovals).Nodup := by
  have decided := roundGroups_removals host records world
  have removed := (removeOrphanGroups_removes host config (roundGroups host records world) world).trans
    (orphanRound_touches host config records world).removes
  rw [List.append_nil] at removed
  exact ⟨removed, decided.nodup_iff.mpr (nodup_queueOrphan _)⟩

/-- The key of a removal a round decides on is the key of an entry without owners. -/
theorem Untried.fresh {tried : List (String × String × String)} (untried : Untried host tried records world)
    {package : Package}
    (decided : package ∈ orphanedPackages host world.plugins world.installed.loadInstalledState records) :
    removalKey package ∉ tried ∧
      ∃ entry ∈ world.installed.loadInstalledState, entryKey entry = removalKey package := by
  obtain ⟨record, listed, removal, dependency, required, entry, found, unowned, rfl⟩ :=
    mem_orphanedPackages decided
  obtain ⟨present, system, name⟩ := findInstalledDependency_spec found
  have same : entryKey entry = removalKey { dependency with action := .remove, version := entry.version } := by
    simp only [entryKey, removalKey, system, name]
  exact ⟨same ▸ untried record listed removal dependency required entry found unowned, entry, present, same⟩

theorem mem_removeOrphanGroups {groups : List TaskGroup} {record : TransactionRecord}
    (member : record ∈ (removeOrphanGroups host config groups world).1) :
    ∃ group ∈ groups, ∃ package ∈ group.packages, record.system = group.system ∧
      record.packageName = package.name ∧ record.packageVersion = package.version := by
  induction groups using List.reverseRecOn with
  | nil => simp [removeOrphanGroups] at member
  | append_singleton groups group ih =>
      simp only [removeOrphanGroups, List.foldl_concat] at member
      rcases List.mem_append.mp member with old | new
      · obtain ⟨earlier, listed, held⟩ := ih old
        exact ⟨earlier, List.mem_append_left _ listed, held⟩
      · obtain ⟨package, listed, status, message, rfl, _⟩ :=
          (executeTaskGroup_execution host config "" group _).record_of new
        exact ⟨group, by simp, package, listed, rfl, rfl, rfl⟩

/-- What a round records as removed it had decided on. -/
theorem mem_recordedRemovals_orphanRound {key : String × String × String}
    (recorded : key ∈ recordedRemovals (orphanRound host config records world).1) :
    ∃ package ∈ orphanedPackages host world.plugins world.installed.loadInstalledState records,
      removalKey package = key := by
  simp only [recordedRemovals, List.mem_map, List.mem_filter] at recorded
  obtain ⟨record, ⟨member, _⟩, rfl⟩ := recorded
  have executed : record ∈ (removeOrphanGroups host config (roundGroups host records world) world).1 := by
    simp only [orphanRound] at member
    split at member
    · exact member
    · exact member
  obtain ⟨group, grouped, package, listed, system, name, version⟩ := mem_removeOrphanGroups executed
  simp only [roundGroups, orphanGroups, List.mem_map] at grouped
  obtain ⟨bin, _, rfl⟩ := grouped
  simp only [List.mem_filter, beq_iff_eq] at listed
  exact ⟨package, listed.1, by simp only [removalKey, system, name, version, listed.2]⟩

theorem orphanRound_of_nothing_removed (nothing : recordedRemovals records = []) :
    (orphanRound host config records world).1 = [] := by
  have none : records.filter isSuccessfulRemoval = [] := List.map_eq_nil_iff.mp nothing
  simp [orphanRound, orphanedPackages, none, orphanGroups, stableSort, removeOrphanGroups]

/-- The rounds end: each of them takes a package from what is known to be installed. -/
theorem removeOrphanedDependencies_isSome {known recorded : List (String × String × String)} {fuel : Nat}
    (untried : RoundsUntried host start recorded (roundsOf host config fuel records world))
    (bounded : ∀ round ∈ roundsOf host config fuel records world,
      ∀ entry ∈ round.2.installed.loadInstalledState, entryKey entry ∈ known)
    (enough : (known.filter fun key => !(recorded ++ recordedRemovals records).contains key).length + 2 ≤ fuel) :
    (removeOrphanedDependencies host config fuel records world).isSome = true := by
  induction fuel generalizing recorded records world with
  | zero => omega
  | succ fuel ih =>
      rw [removeOrphanedDependencies]
      cases tracked : tracksInstalled config with
      | false => rfl
      | true =>
          simp only [roundsOf, tracked, if_true] at untried bounded ⊢
          cases nothing : (orphanRound host config records world).1.isEmpty with
          | true => rfl
          | false =>
              simp only [nothing, Bool.false_eq_true, if_false, Option.isSome_map] at untried bounded ⊢
              cases removed : recordedRemovals (orphanRound host config records world).1 with
              | nil =>
                  -- Nothing was removed, so the next round decides on nothing.
                  obtain ⟨fuel, rfl⟩ : ∃ less, fuel = less + 1 := ⟨fuel - 1, by omega⟩
                  simp [removeOrphanedDependencies, tracked, orphanRound_of_nothing_removed removed]
              | cons key rest =>
                  apply ih untried.2 fun round later => bounded round (List.mem_cons_of_mem _ later)
                  obtain ⟨package, decided, same⟩ :=
                    mem_recordedRemovals_orphanRound (removed ▸ List.mem_cons_self)
                  obtain ⟨fresh, entry, present, entryKey_eq⟩ := untried.1.fresh decided
                  have isKnown := bounded (records, world) List.mem_cons_self entry present
                  rw [entryKey_eq, same] at isKnown
                  rw [same, List.mem_append, not_or] at fresh
                  have fewer : (known.filter fun other => !(recorded ++ recordedRemovals records ++
                      key :: rest).contains other).length <
                      (known.filter fun other => !(recorded ++ recordedRemovals records).contains other).length := by
                    have nested : (known.filter fun other => !(recorded ++ recordedRemovals records ++
                        key :: rest).contains other) =
                        (known.filter fun other => !(recorded ++ recordedRemovals records).contains other).filter
                          fun other => !(key :: rest).contains other := by
                      rw [List.filter_filter]
                      refine List.filter_congr fun other _ => ?_
                      rw [List.contains_append, Bool.not_or, Bool.and_comm]
                    rw [nested, List.length_filter_lt_length_iff_exists]
                    refine ⟨key, List.mem_filter.mpr ⟨isKnown, ?_⟩, by simp⟩
                    simpa using fresh.2
                  rw [removed]
                  change (known.filter fun other => !(recorded ++ recordedRemovals records ++
                    key :: rest).contains other).length + 2 ≤ fuel
                  omega

/-- What was handed over up to a world and in the round that starts there. -/
theorem nodup_removedBetween_orphanRound {tried : List (String × String × String)}
    (untried : Untried host (removedBetween start world ++ tried) records world)
    (reached : start.calls <+: world.calls) (once : (removedBetween start world).Nodup) :
    (removedBetween start (orphanRound host config records world).2).Nodup := by
  obtain ⟨removes, distinct⟩ := orphanRound_removes host config records world
  refine removes.keeps_once distinct reached once fun key member => ?_
  obtain ⟨package, listed, rfl⟩ := List.mem_map.mp ((roundGroups_removals host records world).mem_iff.mp member)
  exact fun earlier => (untried.fresh listed).1 (List.mem_append_left _ earlier)

/-- Rounds that meet nothing they tried before hand over nothing twice. -/
theorem nodup_removedBetween_rounds {recorded : List (String × String × String)} {fuel : Nat}
    {removed : List TransactionRecord} {after : World σ}
    (untried : RoundsUntried host start recorded (roundsOf host config fuel records world))
    (cleaned : removeOrphanedDependencies host config fuel records world = some (removed, after))
    (reached : start.calls <+: world.calls) (once : (removedBetween start world).Nodup) :
    (removedBetween start after).Nodup := by
  induction fuel generalizing recorded records world removed after with
  | zero => simp [removeOrphanedDependencies] at cleaned
  | succ fuel ih =>
      simp only [removeOrphanedDependencies] at cleaned
      cases tracked : tracksInstalled config with
      | false =>
          simp only [tracked, Bool.false_eq_true, if_false, Option.some.injEq, Prod.mk.injEq] at cleaned
          rw [← cleaned.2]
          exact once
      | true =>
          simp only [roundsOf, tracked, if_true] at cleaned untried
          have first := @nodup_removedBetween_orphanRound σ host config records world start _ untried.1 reached once
          cases nothing : (orphanRound host config records world).1.isEmpty with
          | true =>
              simp only [nothing, if_true, Option.some.injEq] at cleaned
              rw [cleaned] at first
              exact first
          | false =>
              simp only [nothing, Bool.false_eq_true, if_false, Option.map_eq_some_iff] at cleaned untried
              obtain ⟨⟨nested, final⟩, deeper, same⟩ := cleaned
              cases same
              exact ih untried.2 deeper (reached.trans (orphanRound_extends host config records world).calls) first

end Rounds

section Calls

/-- The packages of the interrupted run that recovery may hand over, as it hands them
over. -/
def resumedPackages (host : Host σ) (config : ExecutionConfig) (world : World σ) : List Package :=
  if config.useTransactionDb then
    match world.journal.getActiveRun with
    | none => []
    | some (runId, run) =>
        if run.state = .committed then []
        else (recoveryOrder host world.plugins (pendingItems world.journal runId)).map (·.package)
  else []

/-- The records and the world with which the clean-up of a call starts, if the call
comes to it. -/
def cleanUpStart (host : Host σ) (config : ExecutionConfig) (inputAlreadyFiltered : Bool) (graph : Graph)
    (script : ExecuteScript) (world : World σ) : Option (List TransactionRecord × World σ) :=
  (recoveredWorld host config world).bind fun recovered =>
    let planned := plannedGroups host config inputAlreadyFiltered graph script.sorted recovered
    (openRun host config planned.1 planned.2).bind fun opened =>
      (ParallelTaskScheduler.run config.stopOnFirstFailure
        (executeTaskGroup host config opened.activeRunId) config.platform host.resolvePluginName
        planned.1 (some graph) config.jobs script.events opened).map fun run =>
          (run.records, subtractDependencyOwnership host config run.records
            (reconcileInstalledOwnership host config
              (createFromGraph config.platform graph script.sorted) planned.1 run.records
              (recordHistory host config run.records run.world)))

theorem recoveredGroups_removals (flags : List String) (items : List JournalItem) :
    (recoveredGroups flags items).flatMap groupRemovals = removalKeys (items.map (·.package)) := by
  rw [← recoveredGroups_packages flags items, removalKeys_flatMap]
  exact List.flatMap_congr fun group member => groupRemovals_of_coherent (recoveredGroups_coherent member)

theorem finishTransactions_removes (records : List TransactionRecord) (world : World σ) :
    Removes world (finishTransactions host config records world) [] :=
  removes_of_calls (by rw [finishTransactions_calls])

/-- Recovery removes what was open in the interrupted run. -/
theorem recoverInterruptedRun_removes (journaled : config.useTransactionDb = true) (world : World σ) :
    ∃ allowed, Removes world (recoverInterruptedRun host config world) allowed ∧
      allowed.Sublist (removalKeys (resumedPackages host config world)) := by
  simp only [resumedPackages, journaled, if_true, recoverInterruptedRun, recoverPendingTaskGroups]
  cases active : world.journal.getActiveRun with
  | none => exact ⟨[], .refl world, List.nil_sublist _⟩
  | some found =>
      obtain ⟨runId, run⟩ := found
      by_cases finished : run.state = .committed
      · simp only [finished, if_true]
        exact ⟨[], .refl world, List.nil_sublist _⟩
      obtain ⟨done, plugins, sublist, _, _, left⟩ := reconcileRecoveredItems_spec host runId
        (pendingItems world.journal runId) { world with activeRunId := runId }
      simp only [finished, if_false]
      rw [← pendingItems]
      generalize reconcileRecoveredItems host runId (pendingItems world.journal runId)
        { world with activeRunId := runId } = reconciled at sublist left
      obtain ⟨kept, reached⟩ := reconciled
      simp only at sublist left
      subst reached
      cases kept with
      | nil => exact ⟨[], removes_of_calls rfl, List.nil_sublist _⟩
      | cons item items =>
          simp only [List.isEmpty_cons, Bool.false_eq_true, if_false]
          split
          · rw [executeRecoveredGroups_eq]
            have executed := runInOrder_removes host config runId config.stopOnFirstFailure
              (recoveredGroups run.flags (item :: items)) { world with
                plugins := plugins
                activeRunId := runId
                journal := (world.journal.withItems runId (Journal.setStatus host.actionCode
                  (done.map (·.package)) .success "")).markRunState runId .recovered }
            rw [recoveredGroups_removals] at executed
            refine ⟨_, ((removes_of_calls rfl).trans executed).trans (finishTransactions_removes _ _), ?_⟩
            simp only [List.nil_append, List.append_nil]
            exact ((sublist.map _).filter _).map _
          · exact ⟨[], removes_of_calls rfl, List.nil_sublist _⟩

theorem cutDown_removals {kept groups : List TaskGroup} (cut : List.SublistForall₂ CutDown kept groups) :
    (kept.flatMap groupRemovals).Sublist (groups.flatMap groupRemovals) := by
  induction cut with
  | nil => exact List.nil_sublist _
  | cons cutDown _ ih =>
      rw [List.flatMap_cons, List.flatMap_cons]
      refine List.Sublist.append ?_ ih
      unfold groupRemovals
      rw [cutDown.2]
      split
      · exact cutDown.1.1.map _
      · exact List.nil_sublist _
  | cons_right _ ih =>
      rw [List.flatMap_cons]
      exact ih.trans (List.sublist_append_right _ _)

/-- What is planned for removal stands in the graph. -/
theorem plannedGroups_removals (honest : Honest host) (config : ExecutionConfig) (inputAlreadyFiltered : Bool)
    {graph : Graph} {sorted : List Nat} (ordered : SortedBy graph sorted) (world : World σ) :
    ((plannedGroups host config inputAlreadyFiltered graph sorted world).1.flatMap groupRemovals).Subperm
      (removalKeys graph.packages) := by
  have sublist := cutDown_removals
    (plannedGroups_cutDown honest config inputAlreadyFiltered graph sorted world)
  have same : (createFromGraph config.platform graph sorted).flatMap groupRemovals =
      removalKeys ((createFromGraph config.platform graph sorted).flatMap (·.packages)) := by
    rw [removalKeys_flatMap]
    exact List.flatMap_congr fun group member =>
      groupRemovals_of_coherent (createFromGraph_coherent _ _ _ group member)
  rw [same] at sublist
  have whole : (removalKeys ((createFromGraph config.platform graph sorted).flatMap (·.packages))).Perm
      (removalKeys graph.packages) := ((createFromGraph_packages_perm ordered).filter _).map _
  exact sublist.subperm.trans whole.subperm

variable {inputAlreadyFiltered : Bool} {graph : Graph} {script : ExecuteScript} {world : World σ}

theorem recoveredWorld_removes {recovered : World σ}
    (entered : recoveredWorld host config world = some recovered) :
    ∃ allowed, Removes world recovered allowed ∧
      allowed.Sublist (removalKeys (resumedPackages host config world)) := by
  unfold recoveredWorld at entered
  cases journaled : config.useTransactionDb with
  | true =>
      simp only [journaled, if_true, Option.ite_none_left_eq_some, Option.some.injEq] at entered
      obtain ⟨_, rfl⟩ := entered
      exact recoverInterruptedRun_removes journaled world
  | false =>
      simp only [journaled, Bool.false_eq_true, if_false, Option.some.injEq] at entered
      subst recovered
      exact ⟨[], .refl world, List.nil_sublist _⟩

/-- What recovery handed to remove calls is not left to be removed in the main pass. -/
def RecoveryRespected (host : Host σ) (config : ExecutionConfig) (inputAlreadyFiltered : Bool)
    (graph : Graph) (sorted : List Nat) (world : World σ) : Prop :=
  ∀ recovered, recoveredWorld host config world = some recovered →
    ∀ group ∈ (plannedGroups host config inputAlreadyFiltered graph sorted recovered).1,
      ∀ key ∈ groupRemovals group, key ∉ removedBetween world recovered

/-- Up to its clean-up a call hands over what the interrupted run and the graph ask
for, nothing of it twice. -/
theorem cleanUpStart_once (honest : Honest host) (ordered : SortedBy graph script.sorted)
    (resumed : (removalKeys (resumedPackages host config world)).Nodup)
    (requested : (removalKeys graph.packages).Nodup)
    (respected : RecoveryRespected host config inputAlreadyFiltered graph script.sorted world)
    {records : List TransactionRecord} {start : World σ}
    (starts : cleanUpStart host config inputAlreadyFiltered graph script world = some (records, start)) :
    world.calls <+: start.calls ∧ (removedBetween world start).Nodup := by
  simp only [cleanUpStart, Option.bind_eq_some_iff, Option.map_eq_some_iff, Prod.mk.injEq] at starts
  obtain ⟨recovered, entered, opened, created, run, ran, rfl, rfl⟩ := starts
  obtain ⟨allowed, recovery, sublist⟩ := recoveredWorld_removes entered
  obtain ⟨executed, main, planned⟩ := run_removes ran
  have planning := (plannedGroups_touches host config inputAlreadyFiltered graph script.sorted
    recovered).history.removes
  have opening : Removes (plannedGroups host config inputAlreadyFiltered graph script.sorted recovered).2
      opened [] := removes_of_calls (by rw [openRun_world created])
  have recorded := recordHistory_touches host config run.records run.world
  have owned := reconcileInstalledOwnership_touches host config
    (createFromGraph config.platform graph script.sorted)
    (plannedGroups host config inputAlreadyFiltered graph script.sorted recovered).1 run.records
    (recordHistory host config run.records run.world)
  have subtracted := (recorded.trans owned).trans
    (subtractDependencyOwnership_touches host config run.records _)
  have pass := (planning.trans opening).trans (main.trans subtracted.removes)
  rw [List.append_nil, List.nil_append, List.append_nil] at pass
  refine ⟨recovery.isPrefix.trans pass.isPrefix, ?_⟩
  refine pass.keeps_once ?_ recovery.isPrefix (resumed.sublist (recovery.between.trans sublist)) ?_
  · obtain ⟨chosen, perm, part⟩ :=
      planned.trans (plannedGroups_removals honest config inputAlreadyFiltered ordered recovered)
    exact perm.nodup_iff.mp (requested.sublist part)
  · intro key member
    obtain ⟨group, listed, held⟩ := List.mem_flatMap.mp (planned.subset member)
    exact respected recovered entered group listed key held

/-- A call that does not come to its clean-up has only recovered an interrupted run;
any other one ends with the clean-up. -/
theorem execute_cleanUp {result : ExecuteResult σ}
    (done : execute host config inputAlreadyFiltered graph script world = some result) :
    (∃ allowed, Removes world result.world allowed ∧
        allowed.Sublist (removalKeys (resumedPackages host config world))) ∨
      ∃ records start removed cleaned,
        cleanUpStart host config inputAlreadyFiltered graph script world = some (records, start) ∧
        removeOrphanedDependencies host config script.orphanRounds records start = some (removed, cleaned) ∧
        result.world.calls = cleaned.calls := by
  have graphPart : ∀ recovered, recoveredWorld host config world = some recovered →
      executeGraph host config inputAlreadyFiltered graph script recovered = some result →
      (∃ allowed, Removes world result.world allowed ∧
          allowed.Sublist (removalKeys (resumedPackages host config world))) ∨
        ∃ records start removed cleaned,
          cleanUpStart host config inputAlreadyFiltered graph script world = some (records, start) ∧
          removeOrphanedDependencies host config script.orphanRounds records start =
            some (removed, cleaned) ∧ result.world.calls = cleaned.calls := by
    intro recovered entered executed
    obtain ⟨all, groups, ⟨_, _, _, unopened, _⟩ | ⟨opened, run, created, ran, concluded⟩⟩ :=
      executeGraph_cases executed
    · obtain ⟨allowed, removes, sublist⟩ := recoveredWorld_removes entered
      have planning := (plannedGroups_touches host config inputAlreadyFiltered graph script.sorted
        recovered).history.removes
      rw [← unopened] at planning
      refine Or.inl ⟨_, removes.trans planning, ?_⟩
      rwa [List.append_nil]
    · obtain ⟨cleaned, removed, _, _, _, _, left⟩ := concludeRun_cases concluded
      rw [groups] at created ran removed
      refine Or.inr ⟨run.records, _, result.orphanRecords, cleaned, ?_, removed, ?_⟩
      · simp only [cleanUpStart, entered, created, ran, Option.bind_some, Option.map_some, all]
      · rw [left]
        split
        · rw [finishTransactions_calls]
        · rfl
  rcases execute_cases done with ⟨journaled, _, left⟩ | ⟨recovered, entered, executed⟩
  · rw [left]
    exact Or.inl (recoverInterruptedRun_removes journaled world)
  · exact graphPart recovered entered executed

/-- A call that comes to its clean-up returns when the clean-up ends. -/
theorem execute_isSome {records : List TransactionRecord} {start : World σ}
    (starts : cleanUpStart host config inputAlreadyFiltered graph script world = some (records, start))
    (orphanRounds : Nat) :
    (execute host config inputAlreadyFiltered graph { script with orphanRounds := orphanRounds }
      world).isSome = (removeOrphanedDependencies host config orphanRounds records start).isSome := by
  simp only [cleanUpStart, Option.bind_eq_some_iff, Option.map_eq_some_iff, Prod.mk.injEq] at starts
  obtain ⟨recovered, entered, opened, created, run, ran, rfl, rfl⟩ := starts
  have graphPart : (executeGraph host config inputAlreadyFiltered graph
      { script with orphanRounds := orphanRounds } recovered).isSome =
      (removeOrphanedDependencies host config orphanRounds run.records
        (subtractDependencyOwnership host config run.records
          (reconcileInstalledOwnership host config (createFromGraph config.platform graph script.sorted)
            (plannedGroups host config inputAlreadyFiltered graph script.sorted recovered).1 run.records
            (recordHistory host config run.records run.world)))).isSome := by
    simp only [plannedGroups] at created ran ⊢
    simp only [executeGraph, created, ran, concludeRun]
    split
    · rename_i endless
      rw [endless]
      rfl
    · rename_i ended
      rw [ended]
      rfl
  unfold recoveredWorld at entered
  cases journaled : config.useTransactionDb with
  | false =>
      simp only [journaled, Bool.false_eq_true, if_false, Option.some.injEq] at entered
      subst recovered
      simpa [execute, journaled] using graphPart
  | true =>
      simp only [journaled, if_true, Option.ite_none_left_eq_some, Option.some.injEq] at entered
      obtain ⟨free, rfl⟩ := entered
      simpa [execute, journaled, free] using graphPart

end Calls

section Runs

instance (tried : List (String × String × String)) (records : List TransactionRecord) (world : World σ) :
    Decidable (Untried host tried records world) :=
  inferInstanceAs (Decidable (∀ record ∈ records, isSuccessfulRemoval record = true →
    ∀ dependency ∈ normalizedRequirements host world.plugins (removedPackage record),
      ∀ entry ∈ findInstalledDependency world.installed.loadInstalledState dependency,
      entry.owners = [] → entryKey entry ∉ tried))

instance decidableRoundsUntried (start : World σ) : (recorded : List (String × String × String)) →
    (rounds : List (List TransactionRecord × World σ)) → Decidable (RoundsUntried host start recorded rounds)
  | _, [] => isTrue trivial
  | recorded, round :: rounds =>
      @instDecidableAnd _ _ _ (decidableRoundsUntried start (recorded ++ recordedRemovals round.1) rounds)

/-- More fuel adds no rounds to a clean-up that has ended. -/
theorem roundsOf_of_ended {fuel : Nat} {records : List TransactionRecord} {world : World σ}
    (ended : (removeOrphanedDependencies host config fuel records world).isSome = true) (more : Nat) :
    roundsOf host config (fuel + more) records world = roundsOf host config fuel records world := by
  induction fuel generalizing records world with
  | zero => simp [removeOrphanedDependencies] at ended
  | succ fuel ih =>
      rw [Nat.succ_add]
      simp only [roundsOf]
      simp only [removeOrphanedDependencies] at ended
      split
      · rename_i tracked
        simp only [tracked, if_true] at ended
        split
        · rfl
        · rename_i busy
          rw [if_neg busy, Option.isSome_map] at ended
          rw [ih ended]
      · rfl

/-- Removing a package of another plugin that needs the interpreter. -/
def scipyRemoval : Graph where
  packages := [{ action := .remove, system := "pip", name := "scipy" }]
  edges := []
  bounded := by decide

def scipyScript : ExecuteScript := { sorted := [0], orphanRounds := 3 }

def clockedPipHost : Host Unit := { pipHost with now := fun _ => "t" }

/-- Packages of apt need a library of apt, and the plugin lists the library whatever
was removed. -/
def stubbornHost : Host Unit :=
  { obligingHost fun _ => false with
    getRequirements := fun _ system => if system = "apt" then [{ system := "apt", name := "libc" }] else []
    listPackages := fun system world => (if system = "apt" then [("libc", "2")] else [], world)
    now := fun _ => "t" }

def libcEntry : InstalledEntry :=
  { system := "apt", name := "libc", version := "2", installMethod := "unknown" }

def libcInstalled : World Unit where
  plugins := ()
  installed := [libcEntry]

def libcRemoval : Package := { action := .remove, system := "apt", name := "libc", version := "2" }

def aptRemoved (runId name version : String) : TransactionRecord :=
  { runId := runId, system := "apt", action := .remove, packageName := name, packageVersion := version,
    status := .success }

def editorRemoval : Graph where
  packages := [{ action := .remove, system := "apt", name := "vim" }]
  edges := []
  bounded := by decide

theorem orphanedPackages_stubborn (runId name version : String) :
    orphanedPackages stubbornHost () [libcEntry] [aptRemoved runId name version] = [libcRemoval] := by
  have required : normalizedRequirements stubbornHost () (removedPackage (aptRemoved runId name version)) =
      [{ action := .install, system := "apt", name := "libc" }] := rfl
  have successful : isSuccessfulRemoval (aptRemoved runId name version) = true := rfl
  simp only [orphanedPackages, List.filter_cons, successful, if_true, List.filter_nil, List.flatMap_cons,
    List.flatMap_nil, List.append_nil, required]
  decide

theorem removeOrphanGroups_stubborn (world : World Unit) :
    removeOrphanGroups stubbornHost {} (orphanGroups [libcRemoval]) world =
      ([aptRemoved "" "libc" "2"],
        { world with calls := world.calls ++
            [(.remove "apt" { currentItemId := "apt:libc@2" } [libcRemoval], true)] }) := by
  have groups : orphanGroups [libcRemoval] =
      [{ action := .remove, system := "apt", packages := [libcRemoval] }] := by decide
  rw [groups]
  rfl

theorem recordHistory_stubborn {world : World Unit} (installed : world.installed = [libcEntry]) :
    (recordHistory stubbornHost {} [aptRemoved "" "libc" "2"] world).installed = [libcEntry] := by
  have targets : refreshTargets [aptRemoved "" "libc" "2"] = ["apt"] := by decide
  have replaced : InstalledStore.replaceInstalledState [libcEntry] "apt" "t"
      [{ system := "apt", name := "libc", version := "2" }] = [libcEntry] := by decide
  have appended : (appendEvents {} [aptRemoved "" "libc" "2"] world).installed = [libcEntry] := installed
  unfold recordHistory
  generalize appendEvents {} [aptRemoved "" "libc" "2"] world = logged at appended
  have synced : syncInstalledStateForSystem stubbornHost {} "apt" true logged =
      (true, setInstalled (logged.installed.replaceInstalledState "apt" "t"
        [{ system := "apt", name := "libc", version := "2" }]) { logged with plugins := () }) := rfl
  have refreshed : refreshInstalledState stubbornHost {} [aptRemoved "" "libc" "2"] logged =
      (["apt"], (syncInstalledStateForSystem stubbornHost {} "apt" true logged).2) := by
    unfold refreshInstalledState
    rw [targets]
    rfl
  rw [refreshed, synced, appended, replaced]
  rfl

theorem subtractDependencyOwnership_stubborn {world : World Unit} (installed : world.installed = [libcEntry]) :
    (subtractDependencyOwnership stubbornHost {} [aptRemoved "" "libc" "2"] world).installed =
      [libcEntry] := by
  have subtracted : InstalledStore.subtractInstalledOwnership [libcEntry]
      { action := .install, system := "apt", name := "libc" } [installedPackageOwnerId libcRemoval] =
      [libcEntry] := by decide
  change world.installed.subtractInstalledOwnership { action := .install, system := "apt", name := "libc" }
    [installedPackageOwnerId libcRemoval] = _
  rw [installed, subtracted]

/-- A round removes the library and finds it installed again. -/
theorem orphanRound_stubborn (runId name version : String) {world : World Unit}
    (installed : world.installed = [libcEntry]) :
    (orphanRound stubbornHost {} [aptRemoved runId name version] world).1 = [aptRemoved "" "libc" "2"] ∧
      (orphanRound stubbornHost {} [aptRemoved runId name version] world).2.installed = [libcEntry] := by
  have loaded : InstalledStore.loadInstalledState [libcEntry] = [libcEntry] := by decide
  simp only [orphanRound, installed, loaded]
  rw [orphanedPackages_stubborn, removeOrphanGroups_stubborn]
  refine ⟨rfl, ?_⟩
  apply subtractDependencyOwnership_stubborn
  apply recordHistory_stubborn
  exact installed

theorem removeOrphanedDependencies_stubborn (fuel : Nat) (runId name version : String) {world : World Unit}
    (installed : world.installed = [libcEntry]) :
    removeOrphanedDependencies stubbornHost {} fuel [aptRemoved runId name version] world = none := by
  induction fuel generalizing runId name version world with
  | zero => rfl
  | succ fuel ih =>
      obtain ⟨records, again⟩ := orphanRound_stubborn runId name version installed
      have deeper := ih "" "libc" "2" again
      rw [← records] at deeper
      have tracked : tracksInstalled {} = true := rfl
      have busy : (orphanRound stubbornHost {} [aptRemoved runId name version] world).1.isEmpty = false := by
        rw [records]
        rfl
      simp only [removeOrphanedDependencies, tracked, if_true, busy, Bool.false_eq_true, if_false, deeper,
        Option.map_none]

end Runs

end ReqPack.Executor
