import ReqPack.Scheduler.WorkerRuns

/-! # The sequential path

`run_sequential` of `ParallelTaskScheduler::run`: one pass over the groups in
index order that skips a group whose pending count is not zero when its turn
comes, and never comes back to it.
-/

namespace ReqPack.Scheduler

open ReqPack.Data ReqPack.Core

universe u

structure SequentialState (World : Type u) where
  pendingDependencies : Nat → Nat
  blocked : Nat → Bool
  records : List TransactionRecord
  /-- the loop was left by `break` -/
  stopped : Bool
  world : World
  log : List Observation

/-- The inner loop over the successors of a group that was run. -/
def noteSuccessor {World : Type u} (failed : Bool) (state : SequentialState World) (successor : Nat) :
    SequentialState World :=
  let state :=
    if state.pendingDependencies successor > 0 then
      { state with
        pendingDependencies := Function.update state.pendingDependencies successor
          (state.pendingDependencies successor - 1) }
    else state
  if failed then { state with blocked := Function.update state.blocked successor true } else state

section Path

variable {World : Type u} (plans : List TaskGroupPlan) (stopOnFirstFailure : Bool)
  (executeTaskGroup : TaskGroup → World → List TransactionRecord × World)

/-- One round of the loop over the groups. -/
def sequentialStep (state : SequentialState World) (index : Nat) : SequentialState World :=
  if state.stopped then state
  else if state.blocked index || state.pendingDependencies index != 0 then state
  else
    let result := executeTaskGroup (taskGroupOf plans index) state.world
    let failed := hasFailure result.1
    let noted := (successorsOf plans index).foldl (noteSuccessor failed)
      { state with
        records := state.records ++ result.1
        world := result.2
        log := state.log ++ [.started index, .completed index result.1] }
    { noted with stopped := failed && stopOnFirstFailure }

def initialSequential (world : World) : SequentialState World where
  pendingDependencies := pendingOf plans
  blocked := fun _ => false
  records := []
  stopped := false
  world := world
  log := []

def runSequential (world : World) : SequentialState World :=
  (List.range plans.length).foldl (sequentialStep plans stopOnFirstFailure executeTaskGroup)
    (initialSequential plans world)

/-- What a call of the scheduler leaves behind. -/
structure RunResult (World : Type u) where
  records : List TransactionRecord
  world : World
  log : List Observation

/-- `ParallelTaskScheduler::run` on prepared plans.  The script fixes the order in
which the workers take their steps; a script that is not a complete execution of
the parallel path gives `none`. -/
def runPlans (hasGraph : Bool) (jobs : Nat) (script : List SchedulerEvent) (world : World) :
    Option (RunResult World) :=
  if !hasGraph || jobs ≤ 1 || plans.length ≤ 1 then
    let final := runSequential plans stopOnFirstFailure executeTaskGroup world
    some { records := final.records, world := final.world, log := final.log }
  else
    match runWorkers plans stopOnFirstFailure executeTaskGroup (min jobs plans.length) world script with
    | none => none
    | some final =>
        if final.Terminated then
          some { records := final.records plans.length, world := final.world, log := final.log }
        else none

/-- `ParallelTaskScheduler::run`. -/
def ParallelTaskScheduler.run (platform : Platform) (resolvePluginName : String → String)
    (taskGroups : List TaskGroup) (graph : Option Graph) (jobs : Nat) (script : List SchedulerEvent)
    (world : World) : Option (RunResult World) :=
  runPlans (createPlans platform resolvePluginName taskGroups graph) stopOnFirstFailure
    executeTaskGroup graph.isSome jobs script world

end Path

/-- The records a history holds for one group. -/
def recordsIn (log : List Observation) (index : Nat) : List TransactionRecord :=
  log.flatMap fun observation =>
    match observation with
    | .started _ => []
    | .completed other records => if other = index then records else []

section Records

variable {log : List Observation} {index : Nat} {records : List TransactionRecord}

@[simp] theorem recordsIn_started (other : Nat) :
    recordsIn (log ++ [.started index]) other = recordsIn log other := by
  simp [recordsIn]

theorem recordsIn_completed (other : Nat) :
    recordsIn (log ++ [.completed index records]) other =
      recordsIn log other ++ if index = other then records else [] := by
  simp [recordsIn]

theorem mem_recordsIn {record : TransactionRecord} :
    record ∈ recordsIn log index ↔ ∃ records, .completed index records ∈ log ∧ record ∈ records := by
  simp only [recordsIn, List.mem_flatMap]
  constructor
  · intro listed
    obtain ⟨observation, logged, inside⟩ := listed
    cases observation with
    | started other => simp at inside
    | completed other records =>
        simp only [List.mem_ite_nil_right] at inside
        exact ⟨records, inside.1 ▸ logged, inside.2⟩
  · intro listed
    obtain ⟨records, logged, inside⟩ := listed
    exact ⟨_, logged, by simpa using inside⟩

theorem recordsIn_eq_nil (absent : index ∉ completedIndices log) : recordsIn log index = [] := by
  rw [recordsIn, List.flatMap_eq_nil_iff]
  intro observation member
  cases observation with
  | started _ => rfl
  | completed other reported =>
      have different : other ≠ index := by
        rintro rfl
        exact absent (mem_completedIndices.2 ⟨reported, member⟩)
      simp [different]

theorem recordsIn_of_mem (once : (completedIndices log).Nodup)
    (member : .completed index records ∈ log) : recordsIn log index = records := by
  induction log using List.reverseRecOn with
  | nil => simp at member
  | append_singleton log observation ih =>
      cases observation with
      | started other =>
          rw [recordsIn_started]
          exact ih (by simpa using once) (by simpa using member)
      | completed other reported =>
          rw [completedIndices_completed] at once
          have absent : other ∉ completedIndices log := by
            intro earlier
            exact (List.nodup_append.mp once).2.2 other earlier other List.mem_cons_self rfl
          rw [recordsIn_completed]
          rcases List.mem_append.mp member with old | new
          · have different : other ≠ index := by
              rintro rfl
              exact absent (mem_completedIndices.2 ⟨records, old⟩)
            rw [if_neg different, List.append_nil]
            exact ih (List.nodup_append.mp once).1 old
          · obtain ⟨rfl, rfl⟩ := Observation.completed.inj (List.mem_singleton.mp new)
            rw [recordsIn_eq_nil absent, if_pos rfl, List.nil_append]

end Records

section Noting

variable {World : Type u}

/-- What the loop over the successors changes. -/
theorem foldl_noteSuccessor_spec (failed : Bool) (successors : List Nat) (state : SequentialState World) :
    ∃ pending blocked,
      successors.foldl (noteSuccessor failed) state =
          { state with pendingDependencies := pending, blocked := blocked } ∧
        (∀ index, pending index = state.pendingDependencies index - successors.count index) ∧
        ∀ index, blocked index = (state.blocked index || (failed && decide (index ∈ successors))) := by
  induction successors using List.reverseRecOn with
  | nil => exact ⟨_, _, rfl, by simp, by simp⟩
  | append_singleton successors successor ih =>
      obtain ⟨pending, blocked, equal, pendingSpec, blockedSpec⟩ := ih
      rw [List.foldl_concat, equal]
      refine ⟨Function.update pending successor (pending successor - 1),
        Function.update blocked successor (blocked successor || failed), ?_, fun index => ?_,
        fun index => ?_⟩
      · have lowered : pending successor > 0 ∨ Function.update pending successor
            (pending successor - 1) = pending := by
          by_cases positive : pending successor > 0
          · exact Or.inl positive
          · right
            have same : pending successor - 1 = pending successor := by omega
            rw [same, Function.update_eq_self]
        unfold noteSuccessor
        rcases lowered with positive | same
        · cases failed <;> simp [positive]
        · cases failed <;> simp [same]
      · by_cases same : index = successor
        · subst index
          simp only [Function.update_self, pendingSpec, List.count_append, List.count_singleton_self]
          omega
        · have apart : successor ≠ index := fun equal => same equal.symm
          simp [Function.update_of_ne same, pendingSpec, List.count_append, apart]
      · by_cases same : index = successor
        · subst index
          cases failed <;> simp [blockedSpec]
        · simp [blockedSpec, same]

end Noting

section Invariant

variable {World : Type u} {plans : List TaskGroupPlan} {stopOnFirstFailure : Bool}
  {executeTaskGroup : TaskGroup → World → List TransactionRecord × World}

/-- What holds when the loop comes to the group at `turn`. -/
structure SequentialInvariant (plans : List TaskGroupPlan) (stopOnFirstFailure : Bool)
    (executeTaskGroup : TaskGroup → World → List TransactionRecord × World) (turn : Nat)
    (state : SequentialState World) : Prop where
  pending : ∀ index, index < plans.length →
    state.pendingDependencies index = openIncoming plans state.log index
  blocked : ∀ index, state.blocked index = true ↔
    ∃ source, ReportedFailure state.log source ∧ index ∈ successorsOf plans source
  paired : startedIndices state.log = completedIndices state.log
  past : ∀ index ∈ startedIndices state.log, index < turn
  startedOnce : (startedIndices state.log).Nodup
  stopped : state.stopped = true ↔
    stopOnFirstFailure = true ∧ ∃ source, ReportedFailure state.log source
  gated : Gated plans state.log
  stops : stopOnFirstFailure = true → StopsAfterFailure state.log
  ordered : ∀ before index after, state.log = before ++ .started index :: after →
    ∀ source ∈ completedIndices before, source < index
  /-- a group was passed over because of a failure, or because its turn came too early -/
  skipped : ∀ index, index < turn → index ∉ startedIndices state.log → state.stopped = false →
    ∃ source, index ∈ successorsOf plans source ∧
      (index ≤ source ∨ source ∉ completedIndices state.log ∨ ReportedFailure state.log source)
  records : state.records = (List.range turn).flatMap (recordsIn state.log)
  logged : ∀ index records, .completed index records ∈ state.log →
    CanReturn plans executeTaskGroup index records

theorem sequentialInvariant_initial (consistent : PlansConsistent plans) (world : World) :
    SequentialInvariant plans stopOnFirstFailure executeTaskGroup 0 (initialSequential plans world) where
  pending := by
    intro index bound
    simp only [initialSequential, openIncoming_nil]
    exact consistent.pending index bound
  blocked := by simp [initialSequential]
  paired := by simp [initialSequential]
  past := by simp [initialSequential]
  startedOnce := by simp [initialSequential]
  stopped := by simp [initialSequential]
  gated := gated_nil plans
  stops := fun _ => stopsAfterFailure_nil
  ordered := by simp [initialSequential]
  skipped := by simp
  records := by simp [initialSequential]
  logged := by simp [initialSequential]

/-- Everything one round of the loop can do. -/
theorem sequentialStep_cases (state : SequentialState World) (index : Nat) :
    (sequentialStep plans stopOnFirstFailure executeTaskGroup state index = state ∧
      (state.stopped = true ∨ state.blocked index = true ∨ state.pendingDependencies index ≠ 0)) ∨
    (state.stopped = false ∧ state.blocked index = false ∧ state.pendingDependencies index = 0 ∧
      ∃ records pending blocked,
        records = (executeTaskGroup (taskGroupOf plans index) state.world).1 ∧
        (∀ other, pending other =
          state.pendingDependencies other - (successorsOf plans index).count other) ∧
        (∀ other, blocked other = (state.blocked other ||
          (hasFailure records && decide (other ∈ successorsOf plans index)))) ∧
        sequentialStep plans stopOnFirstFailure executeTaskGroup state index =
          { pendingDependencies := pending
            blocked := blocked
            records := state.records ++ records
            stopped := hasFailure records && stopOnFirstFailure
            world := (executeTaskGroup (taskGroupOf plans index) state.world).2
            log := state.log ++ [.started index] ++ [.completed index records] }) := by
  unfold sequentialStep
  by_cases stopped : state.stopped = true
  · rw [if_pos stopped]
    exact Or.inl ⟨rfl, Or.inl stopped⟩
  · rw [if_neg stopped]
    by_cases passed : (state.blocked index || state.pendingDependencies index != 0) = true
    · rw [if_pos passed]
      refine Or.inl ⟨rfl, Or.inr ?_⟩
      simpa using passed
    · rw [if_neg passed]
      right
      simp only [Bool.or_eq_true, bne_iff_ne, not_or, Bool.not_eq_true, ne_eq, Decidable.not_not] at passed
      refine ⟨by simpa using stopped, passed.1, passed.2, ?_⟩
      obtain ⟨pending, blocked, equal, pendingSpec, blockedSpec⟩ := foldl_noteSuccessor_spec
        (hasFailure (executeTaskGroup (taskGroupOf plans index) state.world).1)
        (successorsOf plans index)
        { state with
          records := state.records ++ (executeTaskGroup (taskGroupOf plans index) state.world).1
          world := (executeTaskGroup (taskGroupOf plans index) state.world).2
          log := state.log ++ [.started index, .completed index
            (executeTaskGroup (taskGroupOf plans index) state.world).1] }
      refine ⟨_, pending, blocked, rfl, pendingSpec, blockedSpec, ?_⟩
      simp only [equal]
      simp

/-- Passing over a group leaves a reason behind. -/
theorem SequentialInvariant.skip {turn : Nat} {state : SequentialState World}
    (valid : SequentialInvariant plans stopOnFirstFailure executeTaskGroup turn state)
    (bound : turn < plans.length)
    (passed : state.stopped = true ∨ state.blocked turn = true ∨ state.pendingDependencies turn ≠ 0) :
    SequentialInvariant plans stopOnFirstFailure executeTaskGroup (turn + 1) state := by
  have absent : turn ∉ completedIndices state.log := by
    rw [← valid.paired]
    exact fun member => Nat.lt_irrefl _ (valid.past turn member)
  refine { valid with past := ?_, skipped := ?_, records := ?_ }
  · exact fun index member => Nat.lt_succ_of_lt (valid.past index member)
  · intro index early unstarted running
    rcases Nat.lt_succ_iff_lt_or_eq.mp early with earlier | rfl
    · exact valid.skipped index earlier unstarted running
    · rcases passed with stopped | blocked | waiting
      · simp [stopped] at running
      · obtain ⟨source, reported, edge⟩ := (valid.blocked index).mp blocked
        exact ⟨source, edge, Or.inr (Or.inr reported)⟩
      · rw [valid.pending index bound] at waiting
        obtain ⟨source, edge, unfinished⟩ := exists_open_of_openIncoming_ne_zero waiting
        exact ⟨source, edge, Or.inr (Or.inl unfinished)⟩
  · rw [List.range_succ, List.flatMap_append, ← valid.records]
    simp [recordsIn_eq_nil absent]

/-- Running a group whose turn has come. -/
theorem SequentialInvariant.run {turn : Nat} {state : SequentialState World}
    (valid : SequentialInvariant plans stopOnFirstFailure executeTaskGroup turn state)
    (bound : turn < plans.length) (running : state.stopped = false)
    (clear : state.blocked turn = false) (zero : state.pendingDependencies turn = 0)
    {records : List TransactionRecord} {pending : Nat → Nat} {blocked : Nat → Bool} {world : World}
    (returned : CanReturn plans executeTaskGroup turn records)
    (pendingSpec : ∀ other, pending other =
      state.pendingDependencies other - (successorsOf plans turn).count other)
    (blockedSpec : ∀ other, blocked other = (state.blocked other ||
      (hasFailure records && decide (other ∈ successorsOf plans turn)))) :
    SequentialInvariant plans stopOnFirstFailure executeTaskGroup (turn + 1)
      { pendingDependencies := pending
        blocked := blocked
        records := state.records ++ records
        stopped := hasFailure records && stopOnFirstFailure
        world := world
        log := state.log ++ [.started turn] ++ [.completed turn records] } := by
  have unstarted : turn ∉ startedIndices state.log :=
    fun member => Nat.lt_irrefl _ (valid.past turn member)
  have uncompleted : turn ∉ completedIndices state.log := valid.paired ▸ unstarted
  have noFailure : stopOnFirstFailure = true → ∀ source, ¬ ReportedFailure state.log source := by
    intro stopping source reported
    rw [valid.stopped.mpr ⟨stopping, source, reported⟩] at running
    simp at running
  constructor
  case pending =>
    intro index indexBound
    rw [openIncoming_completed bound (by simpa using uncompleted), openIncoming_started]
    simp only [pendingSpec, valid.pending index indexBound]
  case blocked =>
    intro index
    simp only [blockedSpec, Bool.or_eq_true, valid.blocked, Bool.and_eq_true, decide_eq_true_eq,
      reportedFailure_completed, reportedFailure_started]
    constructor
    · rintro (⟨source, reported, edge⟩ | ⟨failed, edge⟩)
      · exact ⟨source, Or.inl reported, edge⟩
      · exact ⟨turn, Or.inr ⟨rfl, failed⟩, edge⟩
    · rintro ⟨source, reported | ⟨rfl, failed⟩, edge⟩
      · exact Or.inl ⟨source, reported, edge⟩
      · exact Or.inr ⟨failed, edge⟩
  case paired =>
    rw [startedIndices_completed, startedIndices_started, completedIndices_completed,
      completedIndices_started, valid.paired]
  case past =>
    intro index member
    rw [startedIndices_completed, startedIndices_started] at member
    rcases List.mem_append.mp member with old | new
    · exact Nat.lt_succ_of_lt (valid.past index old)
    · rw [List.mem_singleton.mp new]
      exact Nat.lt_succ_self turn
  case startedOnce =>
    rw [startedIndices_completed, startedIndices_started]
    exact List.concat_eq_append ▸ valid.startedOnce.concat unstarted
  case stopped =>
    simp only [Bool.and_eq_true, reportedFailure_completed, reportedFailure_started]
    constructor
    · rintro ⟨failed, stopping⟩
      exact ⟨stopping, turn, Or.inr ⟨rfl, failed⟩⟩
    · rintro ⟨stopping, source, reported | ⟨_, failed⟩⟩
      · exact absurd reported (noFailure stopping source)
      · exact ⟨failed, stopping⟩
  case gated =>
    refine (valid.gated.concat ?_).concat (by simp)
    intro index same source edge
    obtain rfl := Observation.started.inj same
    rw [valid.pending turn bound] at zero
    refine ⟨completed_of_openIncoming_eq_zero zero edge, fun reported => ?_⟩
    rw [(valid.blocked turn).mpr ⟨source, reported, edge⟩] at clear
    simp at clear
  case stops =>
    intro stopping
    refine ((valid.stops stopping).concat ?_).concat (by simp)
    exact fun _ _ source => noFailure stopping source
  case ordered =>
    refine forall_start_concat (forall_start_concat valid.ordered ?_) (by simp)
    intro index same source member
    obtain rfl := Observation.started.inj same
    exact valid.past source (valid.paired ▸ member)
  case skipped =>
    intro index early absent _
    rw [startedIndices_completed, startedIndices_started, List.mem_append, not_or,
      List.mem_singleton] at absent
    have earlier : index < turn := by omega
    obtain ⟨source, edge, cause⟩ := valid.skipped index earlier absent.1 running
    refine ⟨source, edge, ?_⟩
    rcases cause with late | unfinished | reported
    · exact Or.inl late
    · -- the group that just completed is a later one, so it cannot be an earlier cause
      by_cases same : source = turn
      · left
        omega
      · right
        left
        rw [completedIndices_completed, completedIndices_started, List.mem_append, not_or,
          List.mem_singleton]
        exact ⟨unfinished, same⟩
    · right
      right
      rw [reportedFailure_completed, reportedFailure_started]
      exact Or.inl reported
  case records =>
    have earlier : ∀ index ∈ List.range turn,
        recordsIn (state.log ++ [.started turn] ++ [.completed turn records]) index =
          recordsIn state.log index := by
      intro index member
      have different : turn ≠ index := Nat.ne_of_gt (List.mem_range.mp member)
      rw [recordsIn_completed, recordsIn_started, if_neg different, List.append_nil]
    rw [List.range_succ, List.flatMap_append, List.flatMap_congr earlier, ← valid.records]
    rw [List.flatMap_singleton, recordsIn_completed, recordsIn_started, recordsIn_eq_nil uncompleted,
      if_pos rfl, List.nil_append]
  case logged =>
    intro index reported member
    rcases List.mem_append.mp member with old | new
    · exact valid.logged index reported (by simpa using old)
    · obtain ⟨rfl, rfl⟩ := Observation.completed.inj (List.mem_singleton.mp new)
      exact returned

theorem SequentialInvariant.step {turn : Nat} {state : SequentialState World}
    (valid : SequentialInvariant plans stopOnFirstFailure executeTaskGroup turn state)
    (bound : turn < plans.length) :
    SequentialInvariant plans stopOnFirstFailure executeTaskGroup (turn + 1)
      (sequentialStep plans stopOnFirstFailure executeTaskGroup state turn) := by
  rcases sequentialStep_cases state turn with
    ⟨same, passed⟩ | ⟨running, clear, zero, records, pending, blocked, rfl, pendingSpec, blockedSpec, equal⟩
  · rw [same]
    exact valid.skip bound passed
  · rw [equal]
    exact valid.run bound running clear zero ⟨_, rfl⟩ pendingSpec blockedSpec

/-- The invariant after the whole pass. -/
theorem runSequential_invariant (consistent : PlansConsistent plans) (stopOnFirstFailure : Bool)
    (executeTaskGroup : TaskGroup → World → List TransactionRecord × World) (world : World) :
    SequentialInvariant plans stopOnFirstFailure executeTaskGroup plans.length
      (runSequential plans stopOnFirstFailure executeTaskGroup world) := by
  have reached : ∀ turn, turn ≤ plans.length →
      SequentialInvariant plans stopOnFirstFailure executeTaskGroup turn
        ((List.range turn).foldl (sequentialStep plans stopOnFirstFailure executeTaskGroup)
          (initialSequential plans world)) := by
    intro turn bound
    induction turn with
    | zero => exact sequentialInvariant_initial consistent world
    | succ turn ih =>
        rw [List.range_succ, List.foldl_concat]
        exact (ih (by omega)).step (by omega)
  exact reached plans.length (Nat.le_refl _)

end Invariant

end ReqPack.Scheduler
