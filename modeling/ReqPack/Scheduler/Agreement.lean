import ReqPack.Scheduler.Sequential

/-! # The two paths of the scheduler compared

With outcomes that do not depend on the schedule and without an early stop, a
complete execution runs exactly the groups all of whose predecessors ran without
a failure.  That settles which groups ran as soon as every schedule edge points
forward, so both paths return the same records.
-/

namespace ReqPack.Scheduler

open ReqPack.Data ReqPack.Core

universe u

/-- Every schedule edge leads to a group with a higher index. -/
def Forward (plans : List TaskGroupPlan) : Prop :=
  ∀ source target, target ∈ successorsOf plans source → source < target

/-- Execution with an outcome that depends on the group alone. -/
def constantly (outcome : TaskGroup → List TransactionRecord) (group : TaskGroup) (world : Unit) :
    List TransactionRecord × Unit :=
  (outcome group, world)

/-- There is a chain of schedule edges from one group to another. -/
def Reaches (plans : List TaskGroupPlan) : Nat → Nat → Prop :=
  Relation.TransGen fun source target => target ∈ successorsOf plans source

/-- A history in which exactly those groups ran whose predecessors ran without a failure. -/
structure Settled (plans : List TaskGroupPlan) (outcome : TaskGroup → List TransactionRecord)
    (log : List Observation) : Prop where
  returned : ∀ index records, .completed index records ∈ log →
    records = outcome (taskGroupOf plans index)
  settled : ∀ index, index < plans.length →
    (index ∈ completedIndices log ↔ ∀ source, index ∈ successorsOf plans source →
      source ∈ completedIndices log ∧ hasFailure (outcome (taskGroupOf plans source)) = false)

section Settled

variable {plans : List TaskGroupPlan} {outcome : TaskGroup → List TransactionRecord}
  {log : List Observation}

theorem Settled.reportedFailure_iff (settled : Settled plans outcome log) {index : Nat} :
    ReportedFailure log index ↔
      index ∈ completedIndices log ∧ hasFailure (outcome (taskGroupOf plans index)) = true := by
  constructor
  · intro reported
    obtain ⟨records, member, failed⟩ := reported
    rw [settled.returned index records member] at failed
    exact ⟨mem_completedIndices.2 ⟨records, member⟩, failed⟩
  · rintro ⟨completed, failed⟩
    obtain ⟨records, member⟩ := mem_completedIndices.1 completed
    exact ⟨records, member, by rw [settled.returned index records member]; exact failed⟩

/-- Forward edges leave only one set of groups to run. -/
theorem Settled.completed_iff (forward : Forward plans) {other : List Observation}
    (settled : Settled plans outcome log) (settled' : Settled plans outcome other) {index : Nat}
    (bound : index < plans.length) :
    index ∈ completedIndices log ↔ index ∈ completedIndices other := by
  induction index using Nat.strong_induction_on with
  | h index ih =>
      rw [settled.settled index bound, settled'.settled index bound]
      refine forall_congr' fun source => ?_
      constructor
      · intro allowed edge
        have earlier := forward source index edge
        obtain ⟨completed, clear⟩ := allowed edge
        exact ⟨(ih source earlier (by omega)).mp completed, clear⟩
      · intro allowed edge
        have earlier := forward source index edge
        obtain ⟨completed, clear⟩ := allowed edge
        exact ⟨(ih source earlier (by omega)).mpr completed, clear⟩

/-- A group that did not run stands behind a group that failed. -/
theorem Settled.cause (forward : Forward plans) (settled : Settled plans outcome log) {index : Nat}
    (bound : index < plans.length) (absent : index ∉ completedIndices log) :
    ∃ source, Reaches plans source index ∧ ReportedFailure log source := by
  induction index using Nat.strong_induction_on with
  | h index ih =>
      rw [settled.settled index bound] at absent
      push Not at absent
      obtain ⟨source, edge, failed⟩ := absent
      by_cases completed : source ∈ completedIndices log
      · refine ⟨source, .single edge, settled.reportedFailure_iff.2 ⟨completed, ?_⟩⟩
        simpa using failed completed
      · have earlier := forward source index edge
        obtain ⟨first, path, reported⟩ := ih source earlier (by omega) completed
        exact ⟨first, path.tail edge, reported⟩

theorem CanReturn.eq_outcome {index : Nat} {records : List TransactionRecord}
    (returned : CanReturn plans (constantly outcome) index records) :
    records = outcome (taskGroupOf plans index) := by
  obtain ⟨_, equal⟩ := returned
  exact equal.symm

/-- What the groups in front of a started group must have done. -/
theorem Gated.source_completed (gated : Gated plans log)
    (returned : ∀ index records, .completed index records ∈ log →
      records = outcome (taskGroupOf plans index))
    {index source : Nat} (started : index ∈ startedIndices log)
    (edge : index ∈ successorsOf plans source) :
    source ∈ completedIndices log ∧ hasFailure (outcome (taskGroupOf plans source)) = false := by
  obtain ⟨before, after, split⟩ := List.append_of_mem (mem_startedIndices.1 started)
  obtain ⟨completedBefore, clear⟩ := gated before index after split source edge
  obtain ⟨records, member⟩ := mem_completedIndices.1 completedBefore
  have inLog : .completed source records ∈ log := by
    rw [split]
    exact List.mem_append_left _ member
  refine ⟨mem_completedIndices.2 ⟨records, inLog⟩, ?_⟩
  rw [← returned source records inLog]
  by_contra failed
  exact clear ⟨records, member, by simpa using failed⟩

/-- The workers leave only when nothing is running and nothing can be started. -/
theorem settled_of_terminated (consistent : PlansConsistent plans) {workerCount : Nat}
    (positive : 0 < workerCount) {events : List SchedulerEvent} {final : SchedulerState Unit}
    (run : runWorkers plans false (constantly outcome) workerCount () events = some final)
    (terminated : final.Terminated) :
    Settled plans outcome final.log := by
  have valid := runWorkers_invariant consistent run
  have returned : ∀ index records, .completed index records ∈ final.log →
      records = outcome (taskGroupOf plans index) :=
    fun index records member => (valid.logged index records member).eq_outcome
  have launching : final.state.stopLaunching ≠ true := by
    intro stop
    have := (valid.bookkeeping.stop.mp stop).1
    simp at this
  obtain stop | ⟨nothing, stale⟩ := valid.exited 0
    (terminated 0 (runWorkers_workerCount run ▸ positive))
  · exact absurd stop launching
  have finished : ∀ index, index ∈ startedIndices final.log → index ∈ completedIndices final.log := by
    intro index started
    by_contra absent
    have running : index ∈ runningGroups final.log := mem_runningGroups.2 ⟨started, absent⟩
    simp [nothing] at running
  refine ⟨returned, fun index bound => ⟨fun completed source edge => ?_, fun allowed => ?_⟩⟩
  · exact valid.bookkeeping.gated.source_completed returned
      (valid.bookkeeping.startedFirst index completed) edge
  · apply finished
    by_contra unstarted
    have notStarted : final.state.started index = false := by
      rw [← Bool.not_eq_true, valid.bookkeeping.started]
      exact unstarted
    have clear : final.state.failed index = false := by
      rw [← Bool.not_eq_true, valid.bookkeeping.blocked index unstarted]
      rintro ⟨source, ⟨records, member, failed⟩, edge⟩
      rw [returned source records member] at failed
      simp [(allowed source edge).2] at failed
    have zero : final.state.pendingDependencies index = 0 := by
      rw [valid.bookkeeping.pending index bound]
      by_contra waiting
      obtain ⟨source, edge, running⟩ := exists_open_of_openIncoming_ne_zero waiting
      exact running (allowed source edge).1
    have fresh := isStale_eq_false_iff.2 ⟨notStarted, clear, zero⟩
    rw [stale index bound] at fresh
    simp at fresh

/-- In the single pass a group is only passed over for good if the edges point forward. -/
theorem settled_runSequential (consistent : PlansConsistent plans) (forward : Forward plans) :
    Settled plans outcome (runSequential plans false (constantly outcome) ()).log := by
  have valid := runSequential_invariant consistent false (constantly outcome) ()
  generalize runSequential plans false (constantly outcome) () = final at valid
  have returned : ∀ index records, .completed index records ∈ final.log →
      records = outcome (taskGroupOf plans index) :=
    fun index records member => (valid.logged index records member).eq_outcome
  have running : final.stopped = false := by
    rw [← Bool.not_eq_true, valid.stopped]
    simp
  refine ⟨returned, fun index bound => ⟨fun completed source edge => ?_, fun allowed => ?_⟩⟩
  · exact valid.gated.source_completed returned (valid.paired ▸ completed) edge
  · rw [← valid.paired]
    by_contra unstarted
    obtain ⟨source, edge, cause⟩ := valid.skipped index bound unstarted running
    obtain ⟨completed, clear⟩ := allowed source edge
    rcases cause with late | unfinished | ⟨records, member, failed⟩
    · have earlier := forward source index edge
      omega
    · exact unfinished completed
    · rw [returned source records member, clear] at failed
      simp at failed

end Settled

section Calls

variable {World : Type u} {plans : List TaskGroupPlan} {stopOnFirstFailure : Bool}
  {executeTaskGroup : TaskGroup → World → List TransactionRecord × World}

/-- A call of the scheduler takes the single pass or a complete run of the workers. -/
theorem runPlans_cases {hasGraph : Bool} {jobs : Nat} {script : List SchedulerEvent} {world : World}
    {result : RunResult World}
    (ran : runPlans plans stopOnFirstFailure executeTaskGroup hasGraph jobs script world = some result) :
    (result.log = (runSequential plans stopOnFirstFailure executeTaskGroup world).log ∧
      result.records = (runSequential plans stopOnFirstFailure executeTaskGroup world).records ∧
      result.world = (runSequential plans stopOnFirstFailure executeTaskGroup world).world) ∨
    (1 < jobs ∧ 1 < plans.length ∧ ∃ final,
      runWorkers plans stopOnFirstFailure executeTaskGroup (min jobs plans.length) world script =
          some final ∧
        final.Terminated ∧ result.log = final.log ∧ result.records = final.records plans.length ∧
        result.world = final.world) := by
  unfold runPlans at ran
  split at ran
  · obtain rfl := Option.some.inj ran
    exact Or.inl ⟨rfl, rfl, rfl⟩
  · rename_i several
    simp only [Bool.or_eq_true, Bool.not_eq_true', decide_eq_true_eq, not_or, not_le] at several
    split at ran
    · simp at ran
    · rename_i final run
      split at ran
      · rename_i terminated
        obtain rfl := Option.some.inj ran
        exact Or.inr ⟨several.1.2, several.2, final, run, terminated, rfl, rfl, rfl⟩
      · simp at ran

/-- In both paths the records are those of the history, in the order of the groups. -/
theorem runPlans_records (consistent : PlansConsistent plans) {hasGraph : Bool} {jobs : Nat}
    {script : List SchedulerEvent} {world : World} {result : RunResult World}
    (ran : runPlans plans stopOnFirstFailure executeTaskGroup hasGraph jobs script world = some result) :
    (completedIndices result.log).Nodup ∧
      result.records = (List.range plans.length).flatMap (recordsIn result.log) := by
  rcases runPlans_cases ran with ⟨log, records, _⟩ | ⟨_, _, final, run, _, log, records, _⟩
  · have valid := runSequential_invariant consistent stopOnFirstFailure executeTaskGroup world
    rw [log, records]
    exact ⟨valid.paired ▸ valid.startedOnce, valid.records⟩
  · have valid := runWorkers_invariant consistent run
    rw [log, records]
    refine ⟨valid.bookkeeping.completedOnce, List.flatMap_congr fun index _ => ?_⟩
    by_cases completed : index ∈ completedIndices final.log
    · obtain ⟨reported, member⟩ := mem_completedIndices.1 completed
      rw [valid.completedSlot index reported member,
        recordsIn_of_mem valid.bookkeeping.completedOnce member]
    · rw [valid.emptySlot index completed, recordsIn_eq_nil completed]

theorem runPlans_settled (consistent : PlansConsistent plans) (forward : Forward plans)
    {outcome : TaskGroup → List TransactionRecord} {hasGraph : Bool} {jobs : Nat}
    {script : List SchedulerEvent} {result : RunResult Unit}
    (ran : runPlans plans false (constantly outcome) hasGraph jobs script () = some result) :
    Settled plans outcome result.log := by
  rcases runPlans_cases ran with ⟨log, _⟩ | ⟨severalJobs, severalGroups, final, run, terminated, log, _⟩
  · rw [log]
    exact settled_runSequential consistent forward
  · rw [log]
    exact settled_of_terminated consistent (by omega) run terminated

theorem Settled.recordsIn_eq {outcome : TaskGroup → List TransactionRecord} {log : List Observation}
    (settled : Settled plans outcome log) (once : (completedIndices log).Nodup) {index : Nat}
    (completed : index ∈ completedIndices log) :
    recordsIn log index = outcome (taskGroupOf plans index) := by
  obtain ⟨records, member⟩ := mem_completedIndices.1 completed
  rw [recordsIn_of_mem once member]
  exact settled.returned index records member

end Calls

section Agreement

/-- Parallel and sequential calls return the same records, and a group stays
without records only if it returned none or stands behind a failure. -/
def PathsAgree (plans : List TaskGroupPlan) : Prop :=
  ∀ outcome : TaskGroup → List TransactionRecord,
    (∀ jobs script parallel sequential, 1 < jobs →
      runPlans plans false (constantly outcome) true jobs script () = some parallel →
      runPlans plans false (constantly outcome) true 1 [] () = some sequential →
      parallel.records = sequential.records) ∧
    ∀ jobs script result,
      runPlans plans false (constantly outcome) true jobs script () = some result →
      ∀ index, index < plans.length → recordsIn result.log index = [] →
        outcome (taskGroupOf plans index) = [] ∨
          ∃ source, Reaches plans source index ∧ ReportedFailure result.log source

variable {plans : List TaskGroupPlan}

theorem pathsAgree_of_forward (consistent : PlansConsistent plans) (forward : Forward plans) :
    PathsAgree plans := by
  intro outcome
  constructor
  · intro jobs script parallel sequential _ ranParallel ranSequential
    obtain ⟨parallelOnce, parallelRecords⟩ := runPlans_records consistent ranParallel
    obtain ⟨sequentialOnce, sequentialRecords⟩ := runPlans_records consistent ranSequential
    have settled := runPlans_settled consistent forward ranParallel
    have settled' := runPlans_settled consistent forward ranSequential
    rw [parallelRecords, sequentialRecords]
    refine List.flatMap_congr fun index member => ?_
    have same := settled.completed_iff forward settled' (List.mem_range.mp member)
    by_cases completed : index ∈ completedIndices parallel.log
    · rw [settled.recordsIn_eq parallelOnce completed,
        settled'.recordsIn_eq sequentialOnce (same.mp completed)]
    · rw [recordsIn_eq_nil completed, recordsIn_eq_nil fun done => completed (same.mpr done)]
  · intro jobs script result ran index bound empty
    obtain ⟨once, _⟩ := runPlans_records consistent ran
    have settled := runPlans_settled consistent forward ran
    by_cases completed : index ∈ completedIndices result.log
    · left
      rw [← settled.recordsIn_eq once completed]
      exact empty
    · exact Or.inr (settled.cause forward bound completed)

/-- One successful record for every group. -/
def alwaysSuccess (group : TaskGroup) : List TransactionRecord :=
  [{ system := group.system, action := group.action, packageName := "", packageVersion := "",
     status := .success }]

/-- Where an edge points backward, the single pass comes to its target too early:
the target is dropped although nothing failed. -/
theorem forward_of_pathsAgree (consistent : PlansConsistent plans) (agree : PathsAgree plans) :
    Forward plans := by
  intro source target edge
  have valid := runSequential_invariant consistent false (constantly alwaysSuccess) ()
  by_contra backward
  have unstarted : target ∉ startedIndices
      (runSequential plans false (constantly alwaysSuccess) ()).log := by
    intro started
    obtain ⟨before, after, split⟩ := List.append_of_mem (mem_startedIndices.1 started)
    have completed := (valid.gated before target after split source edge).1
    exact backward (valid.ordered before target after split source completed)
  have empty : recordsIn (runSequential plans false (constantly alwaysSuccess) ()).log target = [] :=
    recordsIn_eq_nil (valid.paired ▸ unstarted)
  obtain none | ⟨failing, _, reported⟩ := (agree alwaysSuccess).2 1 []
    { records := (runSequential plans false (constantly alwaysSuccess) ()).records
      world := (runSequential plans false (constantly alwaysSuccess) ()).world
      log := (runSequential plans false (constantly alwaysSuccess) ()).log }
    (by simp [runPlans]) target (consistent.bounded source target edge) empty
  · simp [alwaysSuccess] at none
  · obtain ⟨records, member, failed⟩ := reported
    rw [(valid.logged failing records member).eq_outcome] at failed
    simp [hasFailure, alwaysSuccess] at failed

end Agreement

end ReqPack.Scheduler
