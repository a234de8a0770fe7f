import ReqPack.Scheduler.Gating

/-! # What a run does to the world

Both paths of the scheduler touch the world through the execution of groups alone,
one group at a time.  A relation that every execution respects therefore leads
from the world of the call to the world of the result, through every group that
reported records.
-/

namespace ReqPack.Scheduler

open ReqPack.Data ReqPack.Core

universe u

section Growth

variable {World : Type u} {plans : List TaskGroupPlan} {stopOnFirstFailure : Bool}
  {executeTaskGroup : TaskGroup → World → List TransactionRecord × World}
  {grows : World → World → Prop}

/-- The records are those of an execution of the group between two worlds of the run. -/
def RanBetween (executeTaskGroup : TaskGroup → World → List TransactionRecord × World)
    (grows : World → World → Prop) (world current : World) (group : TaskGroup)
    (records : List TransactionRecord) : Prop :=
  ∃ before, grows world before ∧ (executeTaskGroup group before).1 = records ∧
    grows (executeTaskGroup group before).2 current

variable (reflexive : ∀ world, grows world world)
  (transitive : ∀ first second third, grows first second → grows second third → grows first third)
  (executes : ∀ group world, grows world (executeTaskGroup group world).2)

include transitive in
theorem RanBetween.later {world current next : World} {group : TaskGroup}
    {records : List TransactionRecord}
    (ran : RanBetween executeTaskGroup grows world current group records) (later : grows current next) :
    RanBetween executeTaskGroup grows world next group records := by
  obtain ⟨before, reached, returned, left⟩ := ran
  exact ⟨before, reached, returned, transitive _ _ _ left later⟩

/-- The worlds of a parallel run: what completed, and what is about to be reported. -/
structure WorldsOrdered (plans : List TaskGroupPlan)
    (executeTaskGroup : TaskGroup → World → List TransactionRecord × World)
    (grows : World → World → Prop) (world : World) (current : SchedulerState World) : Prop where
  reached : grows world current.world
  finished : ∀ worker index records, current.workers worker = .finished index records →
    RanBetween executeTaskGroup grows world current.world (taskGroupOf plans index) records
  logged : ∀ index records, .completed index records ∈ current.log →
    RanBetween executeTaskGroup grows world current.world (taskGroupOf plans index) records

include reflexive transitive executes in
theorem WorldsOrdered.step {world : World} {current next : SchedulerState World}
    (ordered : WorldsOrdered plans executeTaskGroup grows world current)
    (move : SchedulerMove plans stopOnFirstFailure executeTaskGroup current next) :
    WorldsOrdered plans executeTaskGroup grows world next := by
  cases move with
  | rest worker phase queue idle quiet kept subset exited =>
      refine ⟨ordered.reached, fun other index records holds => ?_, ordered.logged⟩
      by_cases same : other = worker
      · subst other
        simp only [Function.update_self] at holds
        simp [holds, WorkerPhase.group] at quiet
      · simp only [Function.update_of_ne same] at holds
        exact ordered.finished other index records holds
  | start worker candidate queue bound before queued fresh idle launching kept subset =>
      refine ⟨ordered.reached, fun other index records holds => ?_, fun index records member => ?_⟩
      · by_cases same : other = worker
        · subst other
          simp at holds
        · simp only [Function.update_of_ne same] at holds
          exact ordered.finished other index records holds
      · apply ordered.logged index records
        simpa using member
  | execute worker index before =>
      have later := executes (taskGroupOf plans index) current.world
      refine ⟨transitive _ _ _ ordered.reached later, fun other finished records holds => ?_,
        fun finished records member =>
          (ordered.logged finished records member).later transitive later⟩
      by_cases same : other = worker
      · subst other
        simp only [Function.update_self, WorkerPhase.finished.injEq] at holds
        obtain ⟨rfl, rfl⟩ := holds
        exact ⟨current.world, ordered.reached, rfl, reflexive _⟩
      · simp only [Function.update_of_ne same] at holds
        exact (ordered.finished other finished records holds).later transitive later
  | complete worker index records before =>
      refine ⟨ordered.reached, fun other finished reported holds => ?_, fun finished reported member => ?_⟩
      · by_cases same : other = worker
        · subst other
          simp at holds
        · simp only [Function.update_of_ne same] at holds
          exact ordered.finished other finished reported holds
      · rcases List.mem_append.mp member with old | new
        · exact ordered.logged finished reported old
        · obtain ⟨rfl, rfl⟩ := Observation.completed.inj (List.mem_singleton.mp new)
          exact ordered.finished worker finished reported before
  | resume workers same =>
      refine ⟨ordered.reached, fun worker index records holds => ?_, ordered.logged⟩
      rcases same worker with unchanged | ⟨picking, _⟩
      · exact ordered.finished worker index records (unchanged ▸ holds)
      · simp only [picking, reduceCtorEq] at holds

include reflexive transitive executes in
theorem runWorkers_worlds {workerCount : Nat} {world : World} {events : List SchedulerEvent}
    {final : SchedulerState World}
    (run : runWorkers plans stopOnFirstFailure executeTaskGroup workerCount world events = some final) :
    WorldsOrdered plans executeTaskGroup grows world final := by
  have initially : WorldsOrdered plans executeTaskGroup grows world
      (initialScheduler plans workerCount world) :=
    ⟨reflexive world, by simp [initialScheduler], by simp [initialScheduler]⟩
  refine runEvents_invariant (fun current event next ordered accepted => ?_) initially run
  exact ordered.step reflexive transitive executes (schedulerStep_move accepted)

include reflexive transitive executes in
theorem runSequential_worlds (world : World) :
    grows world (runSequential plans stopOnFirstFailure executeTaskGroup world).world ∧
      ∀ index records,
        .completed index records ∈ (runSequential plans stopOnFirstFailure executeTaskGroup world).log →
        RanBetween executeTaskGroup grows world
          (runSequential plans stopOnFirstFailure executeTaskGroup world).world
          (taskGroupOf plans index) records := by
  unfold runSequential
  -- The claim holds after any list of turns, so the induction is on the turns taken.
  induction List.range plans.length using List.reverseRecOn with
  | nil => exact ⟨reflexive world, by simp [initialSequential]⟩
  | append_singleton turns turn ih =>
      rw [List.foldl_concat]
      obtain ⟨reached, logged⟩ := ih
      generalize turns.foldl (sequentialStep plans stopOnFirstFailure executeTaskGroup)
        (initialSequential plans world) = state at reached logged
      rcases sequentialStep_cases state turn with
        ⟨same, _⟩ | ⟨_, _, _, records, pending, blocked, rfl, _, _, equal⟩
      · rw [same]
        exact ⟨reached, logged⟩
      · rw [equal]
        have later := executes (taskGroupOf plans turn) state.world
        refine ⟨transitive _ _ _ reached later, fun index reported member => ?_⟩
        simp only [List.mem_append, List.mem_cons, List.not_mem_nil, or_false, reduceCtorEq,
          Observation.completed.injEq] at member
        rcases member with old | ⟨rfl, rfl⟩
        · exact (logged index reported old).later transitive later
        · exact ⟨state.world, reached, rfl, reflexive _⟩

include reflexive transitive executes in
/-- The worlds of a call of the scheduler, whichever path it takes. -/
theorem runPlans_worlds {hasGraph : Bool} {jobs : Nat} {script : List SchedulerEvent} {world : World}
    {result : RunResult World}
    (ran : runPlans plans stopOnFirstFailure executeTaskGroup hasGraph jobs script world = some result) :
    grows world result.world ∧ ∀ index records, .completed index records ∈ result.log →
      RanBetween executeTaskGroup grows world result.world (taskGroupOf plans index) records := by
  rcases runPlans_cases ran with ⟨log, _, final⟩ | ⟨_, _, final, run, _, log, _, left⟩
  · rw [log, final]
    exact runSequential_worlds reflexive transitive executes world
  · rw [log, left]
    have ordered := runWorkers_worlds reflexive transitive executes run
    exact ⟨ordered.reached, ordered.logged⟩

end Growth

section Complete

variable {World : Type u} {plans : List TaskGroupPlan} {stopOnFirstFailure : Bool}
  {executeTaskGroup : TaskGroup → World → List TransactionRecord × World}

theorem runPlans_bounded (consistent : PlansConsistent plans) {hasGraph : Bool} {jobs : Nat}
    {script : List SchedulerEvent} {world : World} {result : RunResult World}
    (ran : runPlans plans stopOnFirstFailure executeTaskGroup hasGraph jobs script world = some result)
    {index : Nat} (completed : index ∈ completedIndices result.log) : index < plans.length := by
  rcases runPlans_cases ran with ⟨log, _⟩ | ⟨_, _, final, run, _, log, _⟩
  · have valid := runSequential_invariant consistent stopOnFirstFailure executeTaskGroup world
    rw [log, ← valid.paired] at completed
    exact valid.past index completed
  · have valid := runWorkers_invariant consistent run
    rw [log] at completed
    exact valid.bookkeeping.bounded index (valid.bookkeeping.startedFirst index completed)

theorem hasFailure_of_reportedFailure {log : List Observation} {groupCount source : Nat}
    (once : (completedIndices log).Nodup) (bound : source < groupCount)
    (reported : ReportedFailure log source) :
    hasFailure ((List.range groupCount).flatMap (recordsIn log)) = true := by
  obtain ⟨records, member, failed⟩ := reported
  simp only [hasFailure, List.any_eq_true] at failed ⊢
  obtain ⟨record, listed, status⟩ := failed
  refine ⟨record, List.mem_flatMap.mpr ⟨source, List.mem_range.mpr bound, ?_⟩, status⟩
  rw [recordsIn_of_mem once member]
  exact listed

theorem runWorkers_complete (consistent : PlansConsistent plans) (forward : Forward plans)
    {workerCount : Nat} (positive : 0 < workerCount) {world : World} {events : List SchedulerEvent}
    {final : SchedulerState World}
    (run : runWorkers plans stopOnFirstFailure executeTaskGroup workerCount world events = some final)
    (terminated : final.Terminated) (clean : ∀ source, ¬ ReportedFailure final.log source)
    {index : Nat} (bound : index < plans.length) : index ∈ completedIndices final.log := by
  have valid := runWorkers_invariant consistent run
  have launching : final.state.stopLaunching ≠ true := by
    intro stop
    obtain ⟨_, source, reported⟩ := valid.bookkeeping.stop.mp stop
    exact clean source reported
  obtain stop | ⟨nothing, stale⟩ := valid.exited 0
    (terminated 0 (runWorkers_workerCount run ▸ positive))
  · exact absurd stop launching
  induction index using Nat.strong_induction_on with
  | h index ih =>
      by_contra absent
      have notStarted : final.state.started index = false := by
        rw [← Bool.not_eq_true, valid.bookkeeping.started]
        intro started
        have running := mem_runningGroups.2 ⟨started, absent⟩
        simp [nothing] at running
      have clear : final.state.failed index = false := by
        rw [← Bool.not_eq_true, valid.bookkeeping.blocked index
          fun started => by simp [valid.bookkeeping.started index |>.mpr started] at notStarted]
        intro blocked
        obtain ⟨source, reported, _⟩ := blocked
        exact clean source reported
      have zero : final.state.pendingDependencies index = 0 := by
        rw [valid.bookkeeping.pending index bound]
        by_contra waiting
        obtain ⟨source, edge, running⟩ := exists_open_of_openIncoming_ne_zero waiting
        have earlier := forward source index edge
        exact running (ih source earlier (by omega))
      have fresh := isStale_eq_false_iff.2 ⟨notStarted, clear, zero⟩
      simp [stale index bound] at fresh

theorem runSequential_complete (consistent : PlansConsistent plans) (forward : Forward plans)
    {world : World}
    (clean : ∀ source, ¬ ReportedFailure
      (runSequential plans stopOnFirstFailure executeTaskGroup world).log source)
    {index : Nat} (bound : index < plans.length) :
    index ∈ completedIndices (runSequential plans stopOnFirstFailure executeTaskGroup world).log := by
  have valid := runSequential_invariant consistent stopOnFirstFailure executeTaskGroup world
  generalize runSequential plans stopOnFirstFailure executeTaskGroup world = final at valid clean
  have running : final.stopped = false := by
    rw [← Bool.not_eq_true, valid.stopped]
    intro stop
    obtain ⟨_, source, reported⟩ := stop
    exact clean source reported
  induction index using Nat.strong_induction_on with
  | h index ih =>
      rw [← valid.paired]
      by_contra unstarted
      obtain ⟨source, edge, cause⟩ := valid.skipped index bound unstarted running
      have earlier := forward source index edge
      rcases cause with late | unfinished | reported
      · omega
      · exact unfinished (ih source earlier (by omega))
      · exact clean source reported

/-- Where every edge points forward, a call whose records hold no failure has run
every group. -/
theorem runPlans_complete (consistent : PlansConsistent plans) (forward : Forward plans)
    {hasGraph : Bool} {jobs : Nat} {script : List SchedulerEvent} {world : World}
    {result : RunResult World}
    (ran : runPlans plans stopOnFirstFailure executeTaskGroup hasGraph jobs script world = some result)
    (clean : hasFailure result.records = false) {index : Nat} (bound : index < plans.length) :
    index ∈ completedIndices result.log := by
  obtain ⟨once, records⟩ := runPlans_records consistent ran
  rw [records] at clean
  have quiet : ∀ source, ¬ ReportedFailure result.log source := by
    intro source reported
    have inside := runPlans_bounded consistent ran reported.completed
    rw [hasFailure_of_reportedFailure once inside reported] at clean
    simp at clean
  rcases runPlans_cases ran with ⟨log, _⟩ | ⟨severalJobs, severalGroups, final, run, terminated, log, _⟩
  · rw [log] at quiet ⊢
    exact runSequential_complete consistent forward quiet bound
  · rw [log] at quiet ⊢
    exact runWorkers_complete consistent forward (by omega) run terminated quiet bound

end Complete

section Serial

variable {World : Type u} {plans : List TaskGroupPlan} {stopOnFirstFailure : Bool}
  {executeTaskGroup : TaskGroup → World → List TransactionRecord × World}

/-- The world after the groups with these indices were executed one after the other. -/
def executeAlong (plans : List TaskGroupPlan)
    (executeTaskGroup : TaskGroup → World → List TransactionRecord × World) (order : List Nat)
    (world : World) : World :=
  order.foldl (fun world index => (executeTaskGroup (taskGroupOf plans index) world).2) world

/-- The executions of a parallel run so far, in the order in which they happened. -/
structure SerialOrder (plans : List TaskGroupPlan)
    (executeTaskGroup : TaskGroup → World → List TransactionRecord × World) (world : World)
    (current : SchedulerState World) (order : List Nat) : Prop where
  once : order.Nodup
  started : ∀ index ∈ order, index ∈ startedIndices current.log
  ahead : ∀ worker index, current.workers worker = .executing index → index ∉ order
  reached : current.world = executeAlong plans executeTaskGroup order world

theorem SerialOrder.step {world : World} {current next : SchedulerState World} {order : List Nat}
    (serial : SerialOrder plans executeTaskGroup world current order)
    (valid : SchedulerInvariant plans stopOnFirstFailure executeTaskGroup current)
    (move : SchedulerMove plans stopOnFirstFailure executeTaskGroup current next) :
    ∃ order, SerialOrder plans executeTaskGroup world next order := by
  cases move with
  | rest worker phase queue idle quiet kept subset exited =>
      refine ⟨order, serial.once, serial.started, fun other index holds => ?_, serial.reached⟩
      by_cases same : other = worker
      · subst other
        simp only [Function.update_self] at holds
        simp [holds, WorkerPhase.group] at quiet
      · simp only [Function.update_of_ne same] at holds
        exact serial.ahead other index holds
  | start worker candidate queue bound before queued fresh idle launching kept subset =>
      have unstarted : candidate ∉ startedIndices current.log := by
        rw [← valid.bookkeeping.started, (isStale_eq_false_iff.1 fresh).1]
        simp
      refine ⟨order, serial.once, fun index member => ?_, fun other index holds => ?_, serial.reached⟩
      · simp [serial.started index member]
      · by_cases same : other = worker
        · subst other
          simp only [Function.update_self, WorkerPhase.executing.injEq] at holds
          subst index
          exact fun member => unstarted (serial.started candidate member)
        · simp only [Function.update_of_ne same] at holds
          exact serial.ahead other index holds
  | execute worker index before =>
      have running := valid.held worker index (by simp [before, WorkerPhase.group])
      refine ⟨order ++ [index], ?_, fun other member => ?_, fun other executed holds => ?_, ?_⟩
      · rw [← List.concat_eq_append]
        exact serial.once.concat (serial.ahead worker index before)
      · rcases List.mem_append.mp member with old | new
        · exact serial.started other old
        · obtain rfl := List.mem_singleton.mp new
          exact (mem_runningGroups.1 running).1
      · by_cases same : other = worker
        · subst other
          simp at holds
        · simp only [Function.update_of_ne same] at holds
          have apart : executed ≠ index := by
            intro equal
            subst executed
            exact same (valid.unique other worker index (by simp [holds, WorkerPhase.group])
              (by simp [before, WorkerPhase.group]))
          simpa [apart] using serial.ahead other executed holds
      · simp only [executeAlong, List.foldl_concat]
        rw [serial.reached]
        rfl
  | complete worker index records before =>
      refine ⟨order, serial.once, fun other member => ?_, fun other executed holds => ?_, serial.reached⟩
      · simpa using serial.started other member
      · by_cases same : other = worker
        · subst other
          simp at holds
        · simp only [Function.update_of_ne same] at holds
          exact serial.ahead other executed holds
  | resume workers same =>
      refine ⟨order, serial.once, serial.started, fun worker index holds => ?_, serial.reached⟩
      rcases same worker with unchanged | ⟨picking, _⟩
      · exact serial.ahead worker index (unchanged ▸ holds)
      · simp only [picking, reduceCtorEq] at holds

theorem runWorkers_serial (consistent : PlansConsistent plans) {workerCount : Nat} {world : World}
    {events : List SchedulerEvent} {final : SchedulerState World}
    (run : runWorkers plans stopOnFirstFailure executeTaskGroup workerCount world events = some final) :
    ∃ order, SerialOrder plans executeTaskGroup world final order := by
  have initially : SerialOrder plans executeTaskGroup world
      (initialScheduler plans workerCount world) [] :=
    ⟨List.nodup_nil, by simp, by simp, rfl⟩
  have preserved : ∀ current event next,
      (SchedulerInvariant plans stopOnFirstFailure executeTaskGroup current ∧
        ∃ order, SerialOrder plans executeTaskGroup world current order) →
      schedulerStep plans stopOnFirstFailure executeTaskGroup current event = some next →
      SchedulerInvariant plans stopOnFirstFailure executeTaskGroup next ∧
        ∃ order, SerialOrder plans executeTaskGroup world next order := by
    intro current event next kept accepted
    obtain ⟨valid, order, serial⟩ := kept
    have move := schedulerStep_move accepted
    exact ⟨valid.move consistent move, serial.step valid move⟩
  exact (runEvents_invariant preserved
    ⟨schedulerInvariant_initial consistent workerCount world, [], initially⟩ run).2

theorem runSequential_serial (world : World) :
    ∃ order, order.Sublist (List.range plans.length) ∧
      (runSequential plans stopOnFirstFailure executeTaskGroup world).world =
        executeAlong plans executeTaskGroup order world := by
  unfold runSequential
  induction List.range plans.length using List.reverseRecOn with
  | nil => exact ⟨[], List.Sublist.refl _, rfl⟩
  | append_singleton turns turn ih =>
      rw [List.foldl_concat]
      obtain ⟨order, sublist, reached⟩ := ih
      generalize turns.foldl (sequentialStep plans stopOnFirstFailure executeTaskGroup)
        (initialSequential plans world) = state at reached
      rcases sequentialStep_cases state turn with ⟨same, _⟩ | ⟨_, _, _, records, pending, blocked, _, _, _, equal⟩
      · rw [same]
        exact ⟨order, sublist.trans (List.sublist_append_left _ _), reached⟩
      · rw [equal]
        refine ⟨order ++ [turn], sublist.append (List.Sublist.refl _), ?_⟩
        simp only [executeAlong, List.foldl_concat]
        rw [reached]
        rfl

/-- Whichever path a call takes, its world is that of executing some of the groups
one after the other, none of them twice. -/
theorem runPlans_serial (consistent : PlansConsistent plans) {hasGraph : Bool} {jobs : Nat}
    {script : List SchedulerEvent} {world : World} {result : RunResult World}
    (ran : runPlans plans stopOnFirstFailure executeTaskGroup hasGraph jobs script world = some result) :
    ∃ order : List Nat, order.Nodup ∧ (∀ index ∈ order, index < plans.length) ∧
      result.world = executeAlong plans executeTaskGroup order world := by
  rcases runPlans_cases ran with ⟨_, _, final⟩ | ⟨_, _, final, run, _, _, _, left⟩
  · obtain ⟨order, sublist, reached⟩ := runSequential_serial world
    rw [final]
    exact ⟨order, List.nodup_range.sublist sublist,
      fun index member => List.mem_range.mp (sublist.subset member), reached⟩
  · obtain ⟨order, serial⟩ := runWorkers_serial consistent run
    have valid := runWorkers_invariant consistent run
    rw [left]
    exact ⟨order, serial.once, fun index member =>
      valid.bookkeeping.bounded index (serial.started index member), serial.reached⟩

end Serial

end ReqPack.Scheduler
