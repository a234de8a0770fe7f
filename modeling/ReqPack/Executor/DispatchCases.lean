import ReqPack.Executor.Dispatch

/-! # What executing a group can do

`executeTaskGroup_cases` sorts the branches of the executor into five outcomes.
Everything later modules need of a group's records, its plugin call and the
journal follows from it.
-/

namespace ReqPack.Executor

open ReqPack.Data ReqPack.Core ReqPack.Scheduler

variable {σ : Type} {host : Host σ} {config : ExecutionConfig} {runId : String} {group : TaskGroup}
  {world after : World σ} {records : List TransactionRecord}

/-- A dispatch to a plugin makes no call at all, or the one call of its action. -/
theorem dispatchTaskGroupToPlugin_cases {ok : Bool}
    (plugin : host.isGatewaySystem group.system = false)
    (dispatched : dispatchTaskGroupToPlugin host group world = (ok, after)) :
    (ok = false ∧ after = world ∧ (pluginOf host group world = none ∨
        ∃ name supportsPack, pluginCallFor group name supportsPack = none)) ∨
      ∃ name supportsPack call, pluginOf host group world = some name ∧
        pluginCallFor group name supportsPack = some call ∧
        after = { world with
          plugins := (host.perform call world.plugins).2
          calls := world.calls ++ [(call, ok)] } := by
  simp only [dispatchTaskGroupToPlugin, plugin, Bool.false_eq_true, if_false] at dispatched
  cases found : pluginOf host group world with
  | none =>
      simp only [found, Prod.mk.injEq] at dispatched
      exact Or.inl ⟨dispatched.1.symm, dispatched.2.symm, Or.inl rfl⟩
  | some name =>
      simp only [found] at dispatched
      cases called : pluginCallFor group name (host.supportsPack world.plugins name) with
      | none =>
          simp only [called, Prod.mk.injEq] at dispatched
          exact Or.inl ⟨dispatched.1.symm, dispatched.2.symm, Or.inr ⟨name, _, called⟩⟩
      | some call =>
          simp only [called, performCall, Prod.mk.injEq] at dispatched
          obtain ⟨rfl, rfl⟩ := dispatched
          exact Or.inr ⟨name, _, call, rfl, called, rfl⟩

/-- The outcomes of executing a group. -/
inductive GroupExecution (host : Host σ) (config : ExecutionConfig) (runId : String)
    (group : TaskGroup) (world : World σ) : List TransactionRecord → World σ → Prop where
  | nothing (reason : group.packages = [] ∨ softSkipsNix host config group = true) :
      GroupExecution host config runId group world [] world
  | gateway (ok : Bool) (message : String) (plugins : σ)
      (system : host.isGatewaySystem group.system = true) :
      GroupExecution host config runId group world
        (if ok then buildSuccessRecords group runId else buildFailureRecords group runId message)
        { world with
          plugins := plugins
          gatewayCalls := world.gatewayCalls ++ [((group.action, group.system, group.packages), ok)] }
  | refused (message : String) (system : host.isGatewaySystem group.system = false) :
      GroupExecution host config runId group world (buildFailureRecords group runId message) world
  | dryRun (dry : config.dryRun = true) (system : host.isGatewaySystem group.system = false) :
      GroupExecution host config runId group world (buildSuccessRecords group runId) world
  | dispatched (wet : config.dryRun = false) (system : host.isGatewaySystem group.system = false)
      (journal : Journal)
      (running : journal = world.journal ∨ world.journal.updateItemsStatus host.actionCode runId
        group.packages .running "" = some journal)
      (ok : Bool) (middle after : World σ) (records : List TransactionRecord)
      (dispatched : dispatchTaskGroupToPlugin host group { world with journal := journal } = (ok, middle))
      (settled : (ok = true ∧ records = buildSuccessRecords group runId ∧ after = middle) ∨
        (ok = false ∧ records = buildFailureRecords group runId "plugin action failed" ∧ after = middle) ∨
        (ok = false ∧ group.usesLocalTarget = false ∧
          settleFailedCall host group runId middle = (records, after))) :
      GroupExecution host config runId group world records after

theorem runTaskGroup_cases (wet : config.dryRun = false)
    (system : host.isGatewaySystem group.system = false)
    (ran : runTaskGroup host group runId world = (records, after)) :
    GroupExecution host config runId group world records after := by
  unfold runTaskGroup at ran
  cases targeted : group.usesLocalTarget with
  | true =>
      simp only [targeted, if_true, Prod.mk.injEq] at ran
      obtain ⟨rfl, rfl⟩ := ran
      refine .dispatched wet system world.journal (Or.inl rfl) _ _ _ _ rfl ?_
      cases dispatched : (dispatchTaskGroupToPlugin host group world).1 with
      | true => exact Or.inl ⟨dispatched, rfl, rfl⟩
      | false => exact Or.inr (Or.inl ⟨dispatched, rfl, rfl⟩)
  | false =>
      simp only [targeted, Bool.false_eq_true, if_false] at ran
      cases updated : world.journal.updateItemsStatus host.actionCode runId group.packages .running "" with
      | none =>
          simp only [updated, Prod.mk.injEq] at ran
          obtain ⟨rfl, rfl⟩ := ran
          exact .refused _ system
      | some journal =>
          simp only [updated] at ran
          cases dispatched : dispatchTaskGroupToPlugin host group { world with journal := journal } with
          | mk ok middle =>
              simp only [dispatched] at ran
              refine .dispatched wet system journal (Or.inr updated) ok middle after records dispatched ?_
              cases ok with
              | true =>
                  simp only [if_true, Prod.mk.injEq] at ran
                  exact Or.inl ⟨rfl, ran.1.symm, ran.2.symm⟩
              | false =>
                  simp only [Bool.false_eq_true, if_false] at ran
                  exact Or.inr (Or.inr ⟨rfl, targeted, ran⟩)

theorem executeTaskGroup_cases (executed : executeTaskGroup host config runId group world = (records, after)) :
    GroupExecution host config runId group world records after := by
  unfold executeTaskGroup at executed
  split at executed
  · rename_i empty
    simp only [Bool.and_eq_true, List.isEmpty_iff] at empty
    cases executed
    exact .nothing (Or.inl empty.1)
  split at executed
  · rename_i skipped
    cases executed
    exact .nothing (Or.inr skipped)
  split at executed
  · rename_i system
    simp only [dispatchTaskGroupToSecurityGateway, Prod.mk.injEq] at executed
    obtain ⟨rfl, rfl⟩ := executed
    exact .gateway _ _ _ system
  rename_i system
  have plugin : host.isGatewaySystem group.system = false := by simpa using system
  split at executed
  · cases executed
    exact .refused _ plugin
  split at executed
  · rename_i dry
    cases executed
    exact .dryRun dry plugin
  rename_i dry
  have wet : config.dryRun = false := by simpa using dry
  split at executed
  · exact runTaskGroup_cases wet plugin executed
  · simp only [Prod.mk.injEq] at executed
    obtain ⟨rfl, rfl⟩ := executed
    refine .dispatched wet plugin world.journal (Or.inl rfl) _ _ _ _ rfl ?_
    cases dispatched : (dispatchTaskGroupToPlugin host group world).1 with
    | true => exact Or.inl ⟨dispatched, rfl, rfl⟩
    | false => exact Or.inr (Or.inl ⟨dispatched, rfl, rfl⟩)

theorem executeTaskGroup_execution (host : Host σ) (config : ExecutionConfig) (runId : String)
    (group : TaskGroup) (world : World σ) :
    GroupExecution host config runId group world (executeTaskGroup host config runId group world).1
      (executeTaskGroup host config runId group world).2 :=
  executeTaskGroup_cases rfl

section Calls

/-- Asking the plugin what is missing changes nothing but the plugin. -/
theorem settleFailedCall_world (settled : settleFailedCall host group runId world = (records, after)) :
    ∃ plugins, after = { world with plugins := plugins } := by
  have unavailable : ∃ plugins, (takeUnavailable host group world).2 = { world with plugins := plugins } := by
    unfold takeUnavailable
    split
    · exact ⟨_, rfl⟩
    · exact ⟨world.plugins, rfl⟩
  obtain ⟨plugins, asked⟩ := unavailable
  simp only [settleFailedCall, splitByMissing, asked, Prod.mk.injEq] at settled
  rw [← settled.2]
  split
  · exact ⟨_, rfl⟩
  · exact ⟨plugins, rfl⟩

/-- A call the executor may make for a group. -/
def CallFor (group : TaskGroup) (call : PluginCall) : Prop :=
  ∃ name supportsPack, (group.plugin = some name ∨ name = group.system) ∧
    pluginCallFor group name supportsPack = some call

theorem pluginOf_cases {name : String} (found : pluginOf host group world = some name) :
    group.plugin = some name ∨ name = group.system := by
  unfold pluginOf at found
  cases preloaded : group.plugin with
  | some plugin =>
      simp only [preloaded, Option.some.injEq] at found
      exact Or.inl (congrArg some found)
  | none =>
      simp only [preloaded, Option.ite_none_right_eq_some, Option.some.injEq] at found
      exact Or.inr found.2.symm

/-- What executing a group can change: the plugins, the two logs of calls, and the
items of the run that it marks as running. -/
structure ExecutionFrame (host : Host σ) (config : ExecutionConfig) (runId : String)
    (group : TaskGroup) (world after : World σ) : Prop where
  installed : after.installed = world.installed
  ownedOnce : after.ownedOnce = world.ownedOnce
  activeRunId : after.activeRunId = world.activeRunId
  history : after.history = world.history
  journal : after.journal = world.journal ∨ world.journal.updateItemsStatus host.actionCode runId
    group.packages .running "" = some after.journal
  calls : ∃ made, after.calls = world.calls ++ made ∧
    ∀ entry ∈ made, CallFor group entry.1 ∧ config.dryRun = false
  gatewayCalls : ∃ sent, after.gatewayCalls = world.gatewayCalls ++ sent ∧
    ∀ entry ∈ sent, entry.1 = (group.action, group.system, group.packages)

theorem GroupExecution.frame (execution : GroupExecution host config runId group world records after) :
    ExecutionFrame host config runId group world after := by
  cases execution with
  | nothing reason => exact ⟨rfl, rfl, rfl, rfl, Or.inl rfl, ⟨[], by simp⟩, ⟨[], by simp⟩⟩
  | refused message system => exact ⟨rfl, rfl, rfl, rfl, Or.inl rfl, ⟨[], by simp⟩, ⟨[], by simp⟩⟩
  | dryRun dry system => exact ⟨rfl, rfl, rfl, rfl, Or.inl rfl, ⟨[], by simp⟩, ⟨[], by simp⟩⟩
  | gateway ok message plugins system =>
      exact ⟨rfl, rfl, rfl, rfl, Or.inl rfl, ⟨[], by simp⟩, ⟨_, rfl, by simp⟩⟩
  | dispatched wet system journal running ok middle _ _ dispatched settled =>
      have left : ∃ plugins, after = { middle with plugins := plugins } := by
        rcases settled with ⟨_, _, rfl⟩ | ⟨_, _, rfl⟩ | ⟨_, _, asked⟩
        · exact ⟨after.plugins, rfl⟩
        · exact ⟨after.plugins, rfl⟩
        · exact settleFailedCall_world asked
      obtain ⟨plugins, rfl⟩ := left
      have marked : journal = world.journal ∨ world.journal.updateItemsStatus host.actionCode runId
          group.packages .running "" = some journal := running
      rcases dispatchTaskGroupToPlugin_cases system dispatched with
        ⟨rfl, rfl, _⟩ | ⟨name, supportsPack, call, found, called, rfl⟩
      · exact ⟨rfl, rfl, rfl, rfl, marked, ⟨[], by simp⟩, ⟨[], by simp⟩⟩
      · refine ⟨rfl, rfl, rfl, rfl, marked, ⟨[(call, ok)], rfl, ?_⟩, ⟨[], by simp⟩⟩
        intro entry member
        obtain rfl := List.mem_singleton.mp member
        exact ⟨⟨name, supportsPack, pluginOf_cases found, called⟩, wet⟩

theorem executeTaskGroup_frame (group : TaskGroup) (world : World σ) :
    ExecutionFrame host config runId group world (executeTaskGroup host config runId group world).2 :=
  (executeTaskGroup_execution host config runId group world).frame

end Calls

section Records

theorem mem_buildSuccessRecords {record : TransactionRecord} :
    record ∈ buildSuccessRecords group runId ↔
      ∃ package ∈ group.packages, makeRecord group runId .success "" package = record := by
  simp [buildSuccessRecords]

theorem mem_buildFailureRecords {message : String} {record : TransactionRecord} :
    record ∈ buildFailureRecords group runId message ↔
      ∃ package ∈ group.packages, makeRecord group runId .failed message package = record := by
  simp [buildFailureRecords]

theorem mem_settleFailedCall (settled : settleFailedCall host group runId world = (records, after))
    {record : TransactionRecord} (member : record ∈ records) :
    ∃ package ∈ group.packages, ∃ status message,
      record = makeRecord group runId status message package ∧ status ≠ .skipped := by
  simp only [settleFailedCall, splitByMissing, Prod.mk.injEq] at settled
  simp only [← settled.1, List.mem_append, List.mem_map] at member
  split at member
  · simp only [List.mem_filter] at member
    rcases member with ⟨package, ⟨listed, _⟩, rfl⟩ | ⟨package, ⟨listed, _⟩, rfl⟩
    · exact ⟨package, listed, _, _, rfl, by simp⟩
    · exact ⟨package, listed, _, _, rfl, by simp⟩
  · rcases member with ⟨package, listed, _⟩ | ⟨package, listed, rfl⟩
    · simp at listed
    · exact ⟨package, listed, _, _, rfl, by simp⟩

/-- A record of a group is the record of one of its packages, done or failed. -/
theorem GroupExecution.record_of (execution : GroupExecution host config runId group world records after)
    {record : TransactionRecord} (member : record ∈ records) :
    ∃ package ∈ group.packages, ∃ status message,
      record = makeRecord group runId status message package ∧ status ≠ .skipped := by
  have built : ∀ message, record ∈ buildFailureRecords group runId message →
      ∃ package ∈ group.packages, ∃ status message,
        record = makeRecord group runId status message package ∧ status ≠ .skipped := by
    intro message failed
    obtain ⟨package, listed, rfl⟩ := mem_buildFailureRecords.1 failed
    exact ⟨package, listed, _, _, rfl, by simp⟩
  have succeeded : record ∈ buildSuccessRecords group runId →
      ∃ package ∈ group.packages, ∃ status message,
        record = makeRecord group runId status message package ∧ status ≠ .skipped := by
    intro done
    obtain ⟨package, listed, rfl⟩ := mem_buildSuccessRecords.1 done
    exact ⟨package, listed, _, _, rfl, by simp⟩
  cases execution with
  | nothing reason => simp at member
  | refused message system => exact built message member
  | dryRun dry system => exact succeeded member
  | gateway ok message plugins system =>
      cases ok with
      | true => exact succeeded member
      | false => exact built message member
  | dispatched wet system journal running ok middle _ _ dispatched settled =>
      rcases settled with ⟨_, rfl, _⟩ | ⟨_, rfl, _⟩ | ⟨_, _, asked⟩
      · exact succeeded member
      · exact built _ member
      · exact mem_settleFailedCall asked member

theorem settleFailedCall_covers (settled : settleFailedCall host group runId world = (records, after))
    {package : Package} (listed : package ∈ group.packages) :
    ∃ status message, makeRecord group runId status message package ∈ records := by
  simp only [settleFailedCall, splitByMissing, Prod.mk.injEq] at settled
  simp only [← settled.1, List.mem_append, List.mem_map]
  split
  · rename_i asks
    simp only [List.mem_filter]
    cases missing : ((host.getMissingPackages group.system group.packages
        (takeUnavailable host group world).2.plugins).1.any fun other => samePackage other package) with
    | true => exact ⟨.failed, _, Or.inr ⟨package, ⟨listed, missing⟩, rfl⟩⟩
    | false => exact ⟨.success, _, Or.inl ⟨package, ⟨listed, by simp [missing]⟩, rfl⟩⟩
  · exact ⟨.failed, _, Or.inr ⟨package, listed, rfl⟩⟩

/-- Outside the Nix skip of a Windows build every package of a group gets a record. -/
theorem GroupExecution.covers (execution : GroupExecution host config runId group world records after)
    (kept : softSkipsNix host config group = false) {package : Package}
    (listed : package ∈ group.packages) :
    ∃ status message, makeRecord group runId status message package ∈ records := by
  cases execution with
  | nothing reason =>
      rcases reason with empty | skipped
      · simp [empty] at listed
      · simp [kept] at skipped
  | refused message system => exact ⟨_, _, mem_buildFailureRecords.2 ⟨package, listed, rfl⟩⟩
  | dryRun dry system => exact ⟨_, _, mem_buildSuccessRecords.2 ⟨package, listed, rfl⟩⟩
  | gateway ok message plugins system =>
      cases ok with
      | true => exact ⟨_, _, mem_buildSuccessRecords.2 ⟨package, listed, rfl⟩⟩
      | false => exact ⟨_, _, mem_buildFailureRecords.2 ⟨package, listed, rfl⟩⟩
  | dispatched wet system journal running ok middle _ _ dispatched settled =>
      rcases settled with ⟨_, rfl, _⟩ | ⟨_, rfl, _⟩ | ⟨_, _, asked⟩
      · exact ⟨_, _, mem_buildSuccessRecords.2 ⟨package, listed, rfl⟩⟩
      · exact ⟨_, _, mem_buildFailureRecords.2 ⟨package, listed, rfl⟩⟩
      · exact settleFailedCall_covers asked listed

/-- A package that a failed call left in its desired state, as far as its plugin says. -/
def LeftDone (host : Host σ) (group : TaskGroup) (package : Package) : Prop :=
  actionUsesMissingPackageFilter group.action = true ∧ ∃ plugins,
    (host.getMissingPackages group.system group.packages plugins).1.any
      (fun other => samePackage other package) = false

theorem settleFailedCall_success (settled : settleFailedCall host group runId world = (records, after))
    {record : TransactionRecord} (member : record ∈ records) (success : record.status = .success) :
    host.hasPlugin world.plugins group.system = true ∧
      ∃ package ∈ group.packages, record = makeRecord group runId .success "" package ∧
        LeftDone host group package := by
  simp only [settleFailedCall, splitByMissing, Prod.mk.injEq] at settled
  simp only [← settled.1, List.mem_append, List.mem_map] at member
  split at member
  · rename_i asks
    simp only [Bool.and_eq_true] at asks
    simp only [List.mem_filter] at member
    rcases member with ⟨package, ⟨listed, absent⟩, rfl⟩ | ⟨package, _, rfl⟩
    · refine ⟨?_, package, listed, rfl, asks.1, _, by simpa using absent⟩
      cases present : host.hasPlugin world.plugins group.system with
      | true => rfl
      | false => simp [takeUnavailable, present] at asks
    · simp [makeRecord] at success
  · rcases member with ⟨package, listed, _⟩ | ⟨package, _, rfl⟩
    · simp at listed
    · simp [makeRecord] at success

theorem pluginCallFor_isSome (filtered : actionUsesMissingPackageFilter group.action = true)
    (name : String) (supportsPack : Bool) : pluginCallFor group name supportsPack ≠ none := by
  unfold pluginCallFor
  cases action : group.action <;> simp [actionUsesMissingPackageFilter, action] at filtered ⊢
  all_goals split <;> simp

/-- A success outside dry run stands for one call, which succeeded or left the
package in its desired state all the same. -/
theorem GroupExecution.success_called
    (execution : GroupExecution host config runId group world records after)
    (wet : config.dryRun = false) (plugin : host.isGatewaySystem group.system = false)
    {record : TransactionRecord} (member : record ∈ records) (success : record.status = .success) :
    ∃ call ok, CallFor group call ∧ after.calls = world.calls ++ [(call, ok)] ∧
      ∃ package ∈ group.packages, record = makeRecord group runId .success "" package ∧
        (ok = true ∨ LeftDone host group package) := by
  have refused : ∀ message, record ∉ buildFailureRecords group runId message := by
    intro message failed
    obtain ⟨package, _, rfl⟩ := mem_buildFailureRecords.1 failed
    simp [makeRecord] at success
  cases execution with
  | nothing reason => simp at member
  | refused message system => exact absurd member (refused message)
  | dryRun dry system => simp [dry] at wet
  | gateway ok message plugins system => simp [system] at plugin
  | dispatched wet system journal running ok middle _ _ dispatched settled =>
      rcases settled with ⟨rfl, rfl, rfl⟩ | ⟨_, rfl, _⟩ | ⟨rfl, _, asked⟩
      · obtain ⟨package, listed, rfl⟩ := mem_buildSuccessRecords.1 member
        rcases dispatchTaskGroupToPlugin_cases system dispatched with
          ⟨failed, _⟩ | ⟨name, supportsPack, call, found, called, rfl⟩
        · simp at failed
        · exact ⟨call, true, ⟨name, supportsPack, pluginOf_cases found, called⟩, rfl,
            package, listed, rfl, Or.inl rfl⟩
      · exact absurd member (refused _)
      · obtain ⟨present, package, listed, same, done⟩ := settleFailedCall_success asked member success
        obtain ⟨plugins, rfl⟩ := settleFailedCall_world asked
        rcases dispatchTaskGroupToPlugin_cases system dispatched with
          ⟨_, rfl, cause⟩ | ⟨name, supportsPack, call, found, called, rfl⟩
        · rcases cause with unknown | ⟨name, supportsPack, uncalled⟩
          · simp only at present
            cases preloaded : group.plugin <;> simp [pluginOf, preloaded, present] at unknown
          · exact absurd uncalled (pluginCallFor_isSome done.1 name supportsPack)
        · exact ⟨call, false, ⟨name, supportsPack, pluginOf_cases found, called⟩, rfl,
            package, listed, same, Or.inr done⟩

/-- The execution gave the group to the gateway or to its plugin, which did what it
was asked to do or left the package in its desired state all the same. -/
def CarriedOut (host : Host σ) (group : TaskGroup) (package : Package) (before after : World σ) : Prop :=
  after.gatewayCalls = before.gatewayCalls ++ [((group.action, group.system, group.packages), true)] ∨
    ∃ call ok, CallFor group call ∧ after.calls = before.calls ++ [(call, ok)] ∧
      (ok = true ∨ LeftDone host group package)

/-- Outside dry run a success record stands for a package that was carried out. -/
theorem GroupExecution.carriedOut
    (execution : GroupExecution host config runId group world records after)
    (wet : config.dryRun = false) {record : TransactionRecord} (member : record ∈ records)
    (success : record.status = .success) :
    ∃ package ∈ group.packages, record = makeRecord group runId .success "" package ∧
      CarriedOut host group package world after := by
  cases system : host.isGatewaySystem group.system with
  | false =>
      obtain ⟨call, ok, called, grown, package, listed, same, outcome⟩ :=
        execution.success_called wet system member success
      exact ⟨package, listed, same, Or.inr ⟨call, ok, called, grown, outcome⟩⟩
  | true =>
      cases execution with
      | nothing reason => simp at member
      | refused message plugin => simp [system] at plugin
      | dryRun dry plugin => simp [dry] at wet
      | dispatched _ plugin => simp [system] at plugin
      | gateway ok message plugins _ =>
          cases ok with
          | true =>
              obtain ⟨package, listed, same⟩ := mem_buildSuccessRecords.1 member
              exact ⟨package, listed, same.symm, Or.inl rfl⟩
          | false =>
              obtain ⟨package, _, rfl⟩ := mem_buildFailureRecords.1 member
              simp [makeRecord] at success

end Records

end ReqPack.Executor
