import ReqPack.Scheduler.ParallelSafety

/-! # Runs of the worker loop

The steps of the workers are sorted into the five moves they can make.  The
invariant adds to the bookkeeping who runs which group, what the result slots
hold and why a worker that left was allowed to leave.
-/

namespace ReqPack.Scheduler

open ReqPack.Data ReqPack.Core

universe u

variable {World : Type u} {plans : List TaskGroupPlan} {stopOnFirstFailure : Bool}
  {executeTaskGroup : TaskGroup → World → List TransactionRecord × World}

/-- The group a worker is responsible for. -/
def WorkerPhase.group : WorkerPhase → Option Nat
  | .executing index => some index
  | .finished index _ => some index
  | _ => none

/-- What one step of one worker does to the whole scheduler. -/
inductive SchedulerMove (plans : List TaskGroupPlan) (stopOnFirstFailure : Bool)
    (executeTaskGroup : TaskGroup → World → List TransactionRecord × World)
    (current : SchedulerState World) : SchedulerState World → Prop where
  /-- nothing to start: the worker waits or leaves -/
  | rest (worker : Nat) (phase : WorkerPhase) (queue : List Nat)
      (before : (current.workers worker).group = none)
      (after : phase.group = none)
      (kept : ∀ index ∈ current.state.readyIndices, isStale current.state index = false → index ∈ queue)
      (subset : ∀ index ∈ queue, index ∈ current.state.readyIndices)
      (reason : phase = .exited → current.state.stopLaunching = true ∨
        (current.state.runningWorkers = 0 ∧ ∀ index ∈ current.state.readyIndices,
          isStale current.state index = false →
            systemOf plans index ∈ current.state.busySystems)) :
      SchedulerMove plans stopOnFirstFailure executeTaskGroup current
        { current with
          state := { current.state with readyIndices := queue }
          workers := Function.update current.workers worker phase }
  | start (worker candidate : Nat) (queue : List Nat)
      (bound : worker < current.workerCount)
      (before : current.workers worker = .picking)
      (queued : candidate ∈ current.state.readyIndices)
      (fresh : isStale current.state candidate = false)
      (idle : systemOf plans candidate ∉ current.state.busySystems)
      (launching : current.state.stopLaunching = false)
      (kept : ∀ index ∈ current.state.readyIndices, isStale current.state index = false →
        index ≠ candidate → index ∈ queue)
      (subset : ∀ index ∈ queue, index ∈ current.state.readyIndices) :
      SchedulerMove plans stopOnFirstFailure executeTaskGroup current
        { current with
          state := { current.state with
            readyIndices := queue
            started := Function.update current.state.started candidate true
            busySystems := insert (systemOf plans candidate) current.state.busySystems
            runningWorkers := current.state.runningWorkers + 1 }
          workers := Function.update current.workers worker (.executing candidate)
          log := current.log ++ [.started candidate] }
  | execute (worker index : Nat) (before : current.workers worker = .executing index) :
      SchedulerMove plans stopOnFirstFailure executeTaskGroup current
        { current with
          world := (executeTaskGroup (taskGroupOf plans index) current.world).2
          workers := Function.update current.workers worker
            (.finished index (executeTaskGroup (taskGroupOf plans index) current.world).1) }
  | complete (worker index : Nat) (records : List TransactionRecord)
      (before : current.workers worker = .finished index records) :
      SchedulerMove plans stopOnFirstFailure executeTaskGroup current
        { current with
          resultSlots := Function.update current.resultSlots index records
          state := complete plans stopOnFirstFailure current.state index (hasFailure records)
          workers := Function.update current.workers worker .notifying
          log := current.log ++ [.completed index records] }
  /-- waking up, or notifying the others -/
  | resume (workers : Nat → WorkerPhase)
      (same : ∀ worker, workers worker = current.workers worker ∨
        workers worker = .picking ∧ (current.workers worker).group = none) :
      SchedulerMove plans stopOnFirstFailure executeTaskGroup current
        { current with workers := workers }

theorem schedulerStep_pick {current next : SchedulerState World} {worker : Nat}
    (accepted : schedulerStep plans stopOnFirstFailure executeTaskGroup current (.pick worker) =
      some next) :
    SchedulerMove plans stopOnFirstFailure executeTaskGroup current next := by
  simp only [schedulerStep] at accepted
  by_cases ready : worker < current.workerCount ∧ current.workers worker = .picking
  · rw [if_pos ready] at accepted
    have idle : (current.workers worker).group = none := by rw [ready.2]; rfl
    cases picked : pick plans current.state with
    | mk outcome state =>
        simp only [picked] at accepted
        rcases pick_cases picked with ⟨rfl, rfl, stop⟩ | ⟨queue, rfl, scanned, ending⟩ |
          ⟨candidate, queue, rfl, launching, scanned, rfl⟩
        · obtain rfl := Option.some.inj accepted
          exact .rest worker .exited current.state.readyIndices idle rfl
            (fun index member _ => member) (fun index member => member) fun _ => Or.inl stop
        · have result := scanned ▸ scanReady_queue plans current.state current.state.readyIndices
          have kept : ∀ index ∈ current.state.readyIndices, isStale current.state index = false →
              index ∈ queue := fun index member fresh => result.kept index member fresh (by simp)
          rcases ending with ⟨rfl, resting⟩ | ⟨rfl, _⟩
          · obtain rfl := Option.some.inj accepted
            exact .rest worker .exited queue idle rfl kept result.subset
              fun _ => Or.inr ⟨resting, result.exhausted rfl⟩
          · obtain rfl := Option.some.inj accepted
            exact .rest worker .waiting queue idle rfl kept result.subset (by simp)
        · have result := scanned ▸ scanReady_queue plans current.state current.state.readyIndices
          obtain ⟨queued, fresh, free⟩ := result.found candidate rfl
          obtain rfl := Option.some.inj accepted
          exact .start worker candidate queue ready.1 ready.2 queued fresh free launching
            (fun index member stillFresh different => result.kept index member stillFresh
              fun same => different (Option.some.inj same).symm)
            result.subset
  · rw [if_neg ready] at accepted
    simp at accepted

/-- Every accepted event is one of the five moves. -/
theorem schedulerStep_move {current next : SchedulerState World} {event : SchedulerEvent}
    (accepted : schedulerStep plans stopOnFirstFailure executeTaskGroup current event = some next) :
    SchedulerMove plans stopOnFirstFailure executeTaskGroup current next := by
  cases event with
  | pick worker => exact schedulerStep_pick accepted
  | execute worker =>
      simp only [schedulerStep] at accepted
      split at accepted
      · rename_i index before
        obtain rfl := Option.some.inj accepted
        exact .execute worker index before
      · simp at accepted
  | complete worker =>
      simp only [schedulerStep] at accepted
      split at accepted
      · rename_i index records before
        obtain rfl := Option.some.inj accepted
        exact .complete worker index records before
      · simp at accepted
  | notify worker =>
      simp only [schedulerStep] at accepted
      split at accepted
      · rename_i before
        obtain rfl := Option.some.inj accepted
        refine .resume _ fun other => ?_
        unfold wakeAll
        by_cases same : other = worker
        · subst other
          right
          simp [before, WorkerPhase.group]
        · simp only [Function.update_of_ne same]
          split
          · rename_i waiting
            exact Or.inr ⟨rfl, by rw [waiting]; rfl⟩
          · exact Or.inl rfl
      · simp at accepted
  | wake worker =>
      simp only [schedulerStep] at accepted
      split at accepted
      · rename_i before
        obtain rfl := Option.some.inj accepted
        refine .resume _ fun other => ?_
        by_cases same : other = worker
        · subst other
          right
          simp [before, WorkerPhase.group]
        · exact Or.inl (Function.update_of_ne same _ _)
      · simp at accepted

/-- A result the execution of a group can have had. -/
def CanReturn (plans : List TaskGroupPlan)
    (executeTaskGroup : TaskGroup → World → List TransactionRecord × World) (index : Nat)
    (records : List TransactionRecord) : Prop :=
  ∃ world, (executeTaskGroup (taskGroupOf plans index) world).1 = records

structure SchedulerInvariant (plans : List TaskGroupPlan) (stopOnFirstFailure : Bool)
    (executeTaskGroup : TaskGroup → World → List TransactionRecord × World)
    (current : SchedulerState World) : Prop where
  bookkeeping : Bookkeeping plans stopOnFirstFailure current.state current.log
  held : ∀ worker index, (current.workers worker).group = some index →
    index ∈ runningGroups current.log
  holder : ∀ index ∈ runningGroups current.log,
    ∃ worker < current.workerCount, (current.workers worker).group = some index
  unique : ∀ first second index, (current.workers first).group = some index →
    (current.workers second).group = some index → first = second
  /-- a worker left because of a failure, or because nothing was left to do -/
  exited : ∀ worker, current.workers worker = .exited → current.state.stopLaunching = true ∨
    (runningGroups current.log = [] ∧
      ∀ index, index < plans.length → isStale current.state index = true)
  completedSlot : ∀ index records, .completed index records ∈ current.log →
    current.resultSlots index = records
  emptySlot : ∀ index, index ∉ completedIndices current.log → current.resultSlots index = []
  returned : ∀ worker index records, current.workers worker = .finished index records →
    CanReturn plans executeTaskGroup index records
  logged : ∀ index records, .completed index records ∈ current.log →
    CanReturn plans executeTaskGroup index records

theorem schedulerInvariant_initial (consistent : PlansConsistent plans) (workerCount : Nat)
    (world : World) :
    SchedulerInvariant plans stopOnFirstFailure executeTaskGroup
      (initialScheduler plans workerCount world) where
  bookkeeping := bookkeeping_initial consistent workerCount world
  held := by simp [initialScheduler, WorkerPhase.group]
  holder := by simp [initialScheduler, runningGroups]
  unique := by simp [initialScheduler, WorkerPhase.group]
  exited := by simp [initialScheduler]
  completedSlot := by simp [initialScheduler]
  emptySlot := by simp [initialScheduler]
  returned := by simp [initialScheduler]
  logged := by simp [initialScheduler]

section Moves

variable {current : SchedulerState World}

theorem group_update {workers : Nat → WorkerPhase} {worker : Nat} {phase : WorkerPhase}
    (same : phase.group = (workers worker).group) (other : Nat) :
    (Function.update workers worker phase other).group = (workers other).group := by
  by_cases equal : other = worker
  · rw [equal, Function.update_self, same]
  · rw [Function.update_of_ne equal]

theorem SchedulerInvariant.rest
    (valid : SchedulerInvariant plans stopOnFirstFailure executeTaskGroup current)
    {worker : Nat} {phase : WorkerPhase} {queue : List Nat}
    (before : (current.workers worker).group = none) (after : phase.group = none)
    (kept : ∀ index ∈ current.state.readyIndices, isStale current.state index = false → index ∈ queue)
    (subset : ∀ index ∈ queue, index ∈ current.state.readyIndices)
    (reason : phase = .exited → current.state.stopLaunching = true ∨
      (current.state.runningWorkers = 0 ∧ ∀ index ∈ current.state.readyIndices,
        isStale current.state index = false →
          systemOf plans index ∈ current.state.busySystems)) :
    SchedulerInvariant plans stopOnFirstFailure executeTaskGroup
      { current with
        state := { current.state with readyIndices := queue }
        workers := Function.update current.workers worker phase } := by
  have groups := group_update (after.trans before.symm)
  constructor
  case bookkeeping => exact valid.bookkeeping.requeue kept subset
  case held => simpa only [groups] using valid.held
  case holder => simpa only [groups] using valid.holder
  case unique => simpa only [groups] using valid.unique
  case exited =>
    intro other left
    by_cases same : other = worker
    · subst other
      simp only [Function.update_self] at left
      rcases reason left with stop | ⟨resting, exhausted⟩
      · exact Or.inl stop
      · right
        -- with nothing running no system is busy, so the scan saw only stale candidates
        have nothing : runningGroups current.log = [] :=
          List.length_eq_zero_iff.mp (valid.bookkeeping.running.symm.trans resting)
        refine ⟨nothing, fun index bound => ?_⟩
        by_contra fresh
        have fresh' : isStale current.state index = false := Bool.not_eq_true _ |>.mp fresh
        have busy := exhausted index (valid.bookkeeping.queue index bound fresh') fresh'
        rw [valid.bookkeeping.busy] at busy
        simp [nothing] at busy
    · simp only [Function.update_of_ne same] at left
      exact valid.exited other left
  case completedSlot => exact valid.completedSlot
  case emptySlot => exact valid.emptySlot
  case returned =>
    intro other index records finished
    by_cases same : other = worker
    · subst other
      simp only [Function.update_self] at finished
      simp [finished, WorkerPhase.group] at after
    · simp only [Function.update_of_ne same] at finished
      exact valid.returned other index records finished
  case logged => exact valid.logged

theorem SchedulerInvariant.start
    (valid : SchedulerInvariant plans stopOnFirstFailure executeTaskGroup current)
    {worker candidate : Nat} {queue : List Nat} (bound : worker < current.workerCount)
    (before : current.workers worker = .picking)
    (queued : candidate ∈ current.state.readyIndices)
    (fresh : isStale current.state candidate = false)
    (idle : systemOf plans candidate ∉ current.state.busySystems)
    (launching : current.state.stopLaunching = false)
    (kept : ∀ index ∈ current.state.readyIndices, isStale current.state index = false →
      index ≠ candidate → index ∈ queue)
    (subset : ∀ index ∈ queue, index ∈ current.state.readyIndices) :
    SchedulerInvariant plans stopOnFirstFailure executeTaskGroup
      { current with
        state := { current.state with
          readyIndices := queue
          started := Function.update current.state.started candidate true
          busySystems := insert (systemOf plans candidate) current.state.busySystems
          runningWorkers := current.state.runningWorkers + 1 }
        workers := Function.update current.workers worker (.executing candidate)
        log := current.log ++ [.started candidate] } := by
  have inside := valid.bookkeeping.queueBounded candidate queued
  have absent := (valid.bookkeeping.start_allowed inside fresh).1
  have uncompleted : candidate ∉ completedIndices current.log :=
    fun member => absent (valid.bookkeeping.startedFirst candidate member)
  have running := runningGroups_started uncompleted
  have unheld : ∀ other, (current.workers other).group ≠ some candidate :=
    fun other holds => absent (mem_runningGroups.1 (valid.held other candidate holds)).1
  constructor
  case bookkeeping => exact valid.bookkeeping.start inside fresh idle launching kept subset
  case held =>
    intro other index holds
    rw [running, List.mem_append]
    by_cases same : other = worker
    · subst other
      simp only [Function.update_self, WorkerPhase.group, Option.some.injEq] at holds
      exact Or.inr (List.mem_singleton.mpr holds.symm)
    · simp only [Function.update_of_ne same] at holds
      exact Or.inl (valid.held other index holds)
  case holder =>
    intro index member
    rw [running] at member
    rcases List.mem_append.mp member with old | new
    · obtain ⟨other, otherBound, holds⟩ := valid.holder index old
      refine ⟨other, otherBound, ?_⟩
      have different : other ≠ worker := by
        rintro rfl
        simp [before, WorkerPhase.group] at holds
      simpa only [Function.update_of_ne different] using holds
    · exact ⟨worker, bound, by simp [WorkerPhase.group, List.mem_singleton.mp new]⟩
  case unique =>
    intro first second index firstHolds secondHolds
    by_cases firstSame : first = worker
    · by_cases secondSame : second = worker
      · exact firstSame.trans secondSame.symm
      · subst first
        simp only [Function.update_self, WorkerPhase.group, Option.some.injEq] at firstHolds
        simp only [Function.update_of_ne secondSame, ← firstHolds] at secondHolds
        exact absurd secondHolds (unheld second)
    · by_cases secondSame : second = worker
      · subst second
        simp only [Function.update_self, WorkerPhase.group, Option.some.injEq] at secondHolds
        simp only [Function.update_of_ne firstSame, ← secondHolds] at firstHolds
        exact absurd firstHolds (unheld first)
      · simp only [Function.update_of_ne firstSame] at firstHolds
        simp only [Function.update_of_ne secondSame] at secondHolds
        exact valid.unique first second index firstHolds secondHolds
  case exited =>
    intro other left
    have different : other ≠ worker := by
      rintro rfl
      simp at left
    simp only [Function.update_of_ne different] at left
    rcases valid.exited other left with stop | ⟨_, exhausted⟩
    · exact Or.inl stop
    · rw [exhausted candidate inside] at fresh
      simp at fresh
  case completedSlot =>
    intro index records member
    exact valid.completedSlot index records (by simpa using member)
  case emptySlot => simpa using valid.emptySlot
  case returned =>
    intro other index records finished
    have different : other ≠ worker := by
      rintro rfl
      simp at finished
    simp only [Function.update_of_ne different] at finished
    exact valid.returned other index records finished
  case logged =>
    intro index records member
    exact valid.logged index records (by simpa using member)

theorem SchedulerInvariant.execute
    (valid : SchedulerInvariant plans stopOnFirstFailure executeTaskGroup current)
    {worker index : Nat} (before : current.workers worker = .executing index) :
    SchedulerInvariant plans stopOnFirstFailure executeTaskGroup
      { current with
        world := (executeTaskGroup (taskGroupOf plans index) current.world).2
        workers := Function.update current.workers worker
          (.finished index (executeTaskGroup (taskGroupOf plans index) current.world).1) } := by
  have groups := group_update (show (WorkerPhase.finished index
    (executeTaskGroup (taskGroupOf plans index) current.world).1).group =
      (current.workers worker).group by rw [before]; rfl)
  constructor
  case bookkeeping => exact valid.bookkeeping
  case held => simpa only [groups] using valid.held
  case holder => simpa only [groups] using valid.holder
  case unique => simpa only [groups] using valid.unique
  case exited =>
    intro other left
    have different : other ≠ worker := by
      rintro rfl
      simp at left
    simp only [Function.update_of_ne different] at left
    exact valid.exited other left
  case completedSlot => exact valid.completedSlot
  case emptySlot => exact valid.emptySlot
  case returned =>
    intro other otherIndex records finished
    by_cases same : other = worker
    · subst other
      simp only [Function.update_self, WorkerPhase.finished.injEq] at finished
      obtain ⟨rfl, rfl⟩ := finished
      exact ⟨current.world, rfl⟩
    · simp only [Function.update_of_ne same] at finished
      exact valid.returned other otherIndex records finished
  case logged => exact valid.logged

theorem SchedulerInvariant.complete
    (valid : SchedulerInvariant plans stopOnFirstFailure executeTaskGroup current)
    (consistent : PlansConsistent plans) {worker index : Nat} {records : List TransactionRecord}
    (before : current.workers worker = .finished index records) :
    SchedulerInvariant plans stopOnFirstFailure executeTaskGroup
      { current with
        resultSlots := Function.update current.resultSlots index records
        state := Scheduler.complete plans stopOnFirstFailure current.state index (hasFailure records)
        workers := Function.update current.workers worker .notifying
        log := current.log ++ [.completed index records] } := by
  have held : (current.workers worker).group = some index := by rw [before]; rfl
  have running := valid.held worker index held
  have uncompleted := (mem_runningGroups.1 running).2
  constructor
  case bookkeeping => exact valid.bookkeeping.complete consistent running records
  case held =>
    intro other otherIndex holds
    have different : other ≠ worker := by
      rintro rfl
      simp [WorkerPhase.group] at holds
    simp only [Function.update_of_ne different] at holds
    rw [runningGroups_completed, List.mem_filter]
    refine ⟨valid.held other otherIndex holds, ?_⟩
    simp only [decide_eq_true_eq]
    rintro rfl
    exact different (valid.unique other worker otherIndex holds held)
  case holder =>
    intro otherIndex member
    rw [runningGroups_completed, List.mem_filter] at member
    obtain ⟨other, otherBound, holds⟩ := valid.holder otherIndex member.1
    have different : other ≠ worker := by
      rintro rfl
      have equal : index = otherIndex := Option.some.inj (held.symm.trans holds)
      simp [equal] at member
    exact ⟨other, otherBound, by simpa only [Function.update_of_ne different] using holds⟩
  case unique =>
    intro first second otherIndex firstHolds secondHolds
    have firstDifferent : first ≠ worker := by
      rintro rfl
      simp [WorkerPhase.group] at firstHolds
    have secondDifferent : second ≠ worker := by
      rintro rfl
      simp [WorkerPhase.group] at secondHolds
    simp only [Function.update_of_ne firstDifferent] at firstHolds
    simp only [Function.update_of_ne secondDifferent] at secondHolds
    exact valid.unique first second otherIndex firstHolds secondHolds
  case exited =>
    intro other left
    have different : other ≠ worker := by
      rintro rfl
      simp at left
    simp only [Function.update_of_ne different] at left
    rcases valid.exited other left with stop | ⟨nothing, _⟩
    · left
      obtain ⟨released, spec, equal⟩ := complete_eq plans stopOnFirstFailure current.state index
        (hasFailure records)
      simp only [equal, spec.stopLaunching, stop, Bool.true_or]
    · simp [nothing] at running
  case completedSlot =>
    intro other reported member
    rcases List.mem_append.mp member with old | new
    · have different : other ≠ index := by
        rintro rfl
        exact uncompleted (mem_completedIndices.2 ⟨reported, old⟩)
      simpa only [Function.update_of_ne different] using valid.completedSlot other reported old
    · obtain ⟨rfl, rfl⟩ := Observation.completed.inj (List.mem_singleton.mp new)
      exact Function.update_self ..
  case emptySlot =>
    intro other absent
    rw [completedIndices_completed, List.mem_append, not_or, List.mem_singleton] at absent
    simpa only [Function.update_of_ne absent.2] using valid.emptySlot other absent.1
  case returned =>
    intro other otherIndex reported finished
    have different : other ≠ worker := by
      rintro rfl
      simp at finished
    simp only [Function.update_of_ne different] at finished
    exact valid.returned other otherIndex reported finished
  case logged =>
    intro other reported member
    rcases List.mem_append.mp member with old | new
    · exact valid.logged other reported old
    · obtain ⟨rfl, rfl⟩ := Observation.completed.inj (List.mem_singleton.mp new)
      exact valid.returned worker _ _ before

theorem SchedulerInvariant.resume
    (valid : SchedulerInvariant plans stopOnFirstFailure executeTaskGroup current)
    {workers : Nat → WorkerPhase}
    (same : ∀ worker, workers worker = current.workers worker ∨
      workers worker = .picking ∧ (current.workers worker).group = none) :
    SchedulerInvariant plans stopOnFirstFailure executeTaskGroup
      { current with workers := workers } := by
  have groups : ∀ worker, (workers worker).group = (current.workers worker).group := by
    intro worker
    rcases same worker with equal | ⟨picking, none⟩
    · rw [equal]
    · rw [picking, none]
      rfl
  have unchanged : ∀ worker phase, workers worker = phase → phase ≠ .picking →
      current.workers worker = phase := by
    intro worker phase now other
    rcases same worker with equal | ⟨picking, _⟩
    · exact equal.symm.trans now
    · exact absurd (now.symm.trans picking) other
  constructor
  case bookkeeping => exact valid.bookkeeping
  case held => simpa only [groups] using valid.held
  case holder => simpa only [groups] using valid.holder
  case unique => simpa only [groups] using valid.unique
  case exited =>
    intro worker left
    exact valid.exited worker (unchanged worker _ left (by simp))
  case completedSlot => exact valid.completedSlot
  case emptySlot => exact valid.emptySlot
  case returned =>
    intro worker index records finished
    exact valid.returned worker index records (unchanged worker _ finished (by simp))
  case logged => exact valid.logged

end Moves

/-- Every move of every worker preserves the invariant. -/
theorem SchedulerInvariant.move (consistent : PlansConsistent plans)
    {current next : SchedulerState World}
    (valid : SchedulerInvariant plans stopOnFirstFailure executeTaskGroup current)
    (moved : SchedulerMove plans stopOnFirstFailure executeTaskGroup current next) :
    SchedulerInvariant plans stopOnFirstFailure executeTaskGroup next := by
  cases moved with
  | rest worker phase queue before after kept subset reason =>
      exact valid.rest before after kept subset reason
  | start worker candidate queue bound before queued fresh idle launching kept subset =>
      exact valid.start bound before queued fresh idle launching kept subset
  | execute worker index before => exact valid.execute before
  | complete worker index records before => exact valid.complete consistent before
  | resume workers same => exact valid.resume same

/-- The invariant holds in every state any interleaving can reach. -/
theorem runWorkers_invariant (consistent : PlansConsistent plans) {workerCount : Nat} {world : World}
    {events : List SchedulerEvent} {final : SchedulerState World}
    (run : runWorkers plans stopOnFirstFailure executeTaskGroup workerCount world events = some final) :
    SchedulerInvariant plans stopOnFirstFailure executeTaskGroup final :=
  runEvents_invariant (fun _ _ _ valid accepted => valid.move consistent (schedulerStep_move accepted))
    (schedulerInvariant_initial consistent workerCount world) run

theorem runWorkers_workerCount {workerCount : Nat} {world : World} {events : List SchedulerEvent}
    {final : SchedulerState World}
    (run : runWorkers plans stopOnFirstFailure executeTaskGroup workerCount world events = some final) :
    final.workerCount = workerCount := by
  have preserved : ∀ current event next, current.workerCount = workerCount →
      schedulerStep plans stopOnFirstFailure executeTaskGroup current event = some next →
      next.workerCount = workerCount := by
    intro current event next kept accepted
    cases schedulerStep_move accepted <;> exact kept
  exact runEvents_invariant preserved rfl run

/-- Safety of the worker loop in every state that any interleaving reaches: no
group starts twice, a start stands behind the successful completion of everything
it waits for, no two running groups share a system, nothing starts after a failure
that stops the launch, and `runningWorkers` counts the running groups. -/
theorem runWorkers_safe (consistent : PlansConsistent plans) {workerCount : Nat} {world : World}
    {events : List SchedulerEvent} {final : SchedulerState World}
    (run : runWorkers plans stopOnFirstFailure executeTaskGroup workerCount world events = some final) :
    (startedIndices final.log).Nodup ∧
      Gated plans final.log ∧
      (∀ first ∈ runningGroups final.log, ∀ second ∈ runningGroups final.log,
        systemOf plans first = systemOf plans second → first = second) ∧
      (stopOnFirstFailure = true → StopsAfterFailure final.log) ∧
      final.state.runningWorkers = (runningGroups final.log).length ∧
      ∀ worker index records, final.workers worker = .finished index records →
        0 < final.state.runningWorkers := by
  have valid := runWorkers_invariant consistent run
  refine ⟨valid.bookkeeping.startedOnce, valid.bookkeeping.gated, valid.bookkeeping.exclusive,
    valid.bookkeeping.stops, valid.bookkeeping.running, fun worker index records finished => ?_⟩
  have held : index ∈ runningGroups final.log :=
    valid.held worker index (by rw [finished]; rfl)
  rw [valid.bookkeeping.running]
  exact List.length_pos_of_mem held

/-- Two systems; the package of the second one depends on the first. -/
def chainGraph : Graph where
  packages := [{ action := .install, system := "apt", name := "python" },
    { action := .install, system := "pip", name := "numpy" }]
  edges := [(0, 1)]
  bounded := by decide

def chainPlans : List TaskGroupPlan :=
  createPlans .posix id (createFromGraph .posix chainGraph [1, 0]) (some chainGraph)

/-- A plugin that succeeds at everything. -/
def reportSuccess (group : TaskGroup) (world : Unit) : List TransactionRecord × Unit :=
  (group.packages.map fun package =>
    { system := group.system, action := group.action, packageName := package.name,
      packageVersion := package.version, status := .success }, world)

/-- Worker 1 finds nothing, waits, is woken and runs the second group. -/
def chainEvents : List SchedulerEvent :=
  [.pick 0, .pick 1, .execute 0, .complete 0, .notify 0, .pick 1, .execute 1]

theorem runWorkers_safe_chain :
    ∃ final, runWorkers chainPlans true reportSuccess 2 () chainEvents = some final ∧
      (startedIndices final.log).Nodup ∧ Gated chainPlans final.log ∧
      final.state.runningWorkers = (runningGroups final.log).length := by
  have accepted : (runWorkers chainPlans true reportSuccess 2 () chainEvents).isSome = true := by
    decide
  obtain ⟨final, run⟩ := Option.isSome_iff_exists.mp accepted
  have consistent : PlansConsistent chainPlans := (createPlans_spec .posix id _ chainGraph).2.1
  have safe := runWorkers_safe consistent run
  exact ⟨final, run, safe.1, safe.2.1, safe.2.2.2.2.1⟩

end ReqPack.Scheduler
