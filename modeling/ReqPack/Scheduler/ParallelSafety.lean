import ReqPack.Scheduler.History

/-! # Safety of the worker loop

One invariant ties the flags, the pending counts, the queue and the set of busy
systems to the history of the run.  Every step of every worker preserves it, and
what the scheduler promises follows from it in every reachable state.
-/

namespace ReqPack.Scheduler

open ReqPack.Data ReqPack.Core

universe u

section Scan

variable {plans : List TaskGroupPlan} {state : ParallelExecutionState}

/-- What the scan found, and what it left in the queue. -/
structure ScanResult (plans : List TaskGroupPlan) (state : ParallelExecutionState)
    (seen queue : List Nat) (result : Option Nat × List Nat) : Prop where
  found : ∀ candidate, result.1 = some candidate →
    candidate ∈ seen ∧ isStale state candidate = false ∧
      systemOf plans candidate ∉ state.busySystems
  exhausted : result.1 = none → ∀ index ∈ seen, isStale state index = false →
    systemOf plans index ∈ state.busySystems
  kept : ∀ index ∈ queue, isStale state index = false → result.1 ≠ some index → index ∈ result.2
  subset : ∀ index ∈ result.2, index ∈ queue

/-- The induction is on the candidates the scan has not reached yet; those it
rotated to the back stand behind them. -/
theorem scanReady_spec (front back : List Nat) :
    ScanResult plans state front (front ++ back)
      (scanReady plans state front.length (front ++ back)) := by
  induction front generalizing back with
  | nil =>
      exact ⟨by simp [scanReady], by simp, fun index member _ _ => by simpa [scanReady] using member,
        by simp [scanReady]⟩
  | cons candidate front ih =>
      simp only [List.length_cons, List.cons_append, scanReady]
      by_cases stale : isStale state candidate = true
      · rw [if_pos stale]
        have rest := ih back
        refine ⟨fun index found => ?_, fun none index member fresh => ?_,
          fun index member fresh other => ?_, fun index member => ?_⟩
        · obtain ⟨member, properties⟩ := rest.found index found
          exact ⟨List.mem_cons_of_mem _ member, properties⟩
        · rcases List.mem_cons.mp member with rfl | later
          · simp [stale] at fresh
          · exact rest.exhausted none index later fresh
        · rcases List.mem_cons.mp member with rfl | later
          · simp [stale] at fresh
          · exact rest.kept index later fresh other
        · exact List.mem_cons_of_mem _ (rest.subset index member)
      · have fresh : isStale state candidate = false := by simpa using stale
        rw [if_neg stale]
        by_cases busy : systemOf plans candidate ∈ state.busySystems
        · rw [if_pos busy, List.append_assoc]
          have rest := ih (back ++ [candidate])
          refine ⟨fun index found => ?_, fun none index member fresh => ?_,
            fun index member fresh other => ?_, fun index member => ?_⟩
          · obtain ⟨member, properties⟩ := rest.found index found
            exact ⟨List.mem_cons_of_mem _ member, properties⟩
          · rcases List.mem_cons.mp member with rfl | later
            · exact busy
            · exact rest.exhausted none index later fresh
          · refine rest.kept index ?_ fresh other
            simp only [List.mem_cons, List.mem_append] at member ⊢
            tauto
          · have inQueue := rest.subset index member
            simp only [List.mem_cons, List.mem_append, List.not_mem_nil, or_false] at inQueue ⊢
            tauto
        · rw [if_neg busy]
          refine ⟨fun index found => ?_, fun none => ?_, fun index member fresh other => ?_,
            fun index member => List.mem_cons_of_mem _ member⟩
          · simp only [Option.some.injEq] at found
            subst index
            exact ⟨List.mem_cons_self, fresh, busy⟩
          · simp at none
          · rcases List.mem_cons.mp member with rfl | later
            · exact absurd rfl other
            · exact later

theorem scanReady_queue (plans : List TaskGroupPlan) (state : ParallelExecutionState)
    (queue : List Nat) :
    ScanResult plans state queue queue (scanReady plans state queue.length queue) := by
  simpa using scanReady_spec queue []

end Scan

section Pick

variable {plans : List TaskGroupPlan} {state next : ParallelExecutionState}

/-- Everything a pick-step can do. -/
theorem pick_cases {outcome : PickOutcome} (picked : pick plans state = (outcome, next)) :
    (outcome = .leave ∧ next = state ∧ state.stopLaunching = true) ∨
      (∃ queue, next = { state with readyIndices := queue } ∧
        scanReady plans state state.readyIndices.length state.readyIndices = (none, queue) ∧
        (outcome = .leave ∧ state.runningWorkers = 0 ∨
          outcome = .wait ∧ state.runningWorkers ≠ 0)) ∨
      (∃ candidate queue, outcome = .start candidate ∧ state.stopLaunching = false ∧
        scanReady plans state state.readyIndices.length state.readyIndices =
          (some candidate, queue) ∧
        next = { state with
          readyIndices := queue
          started := Function.update state.started candidate true
          busySystems := insert (systemOf plans candidate) state.busySystems
          runningWorkers := state.runningWorkers + 1 }) := by
  unfold pick at picked
  by_cases stop : state.stopLaunching = true
  · simp only [stop, Bool.true_or, if_true, Prod.mk.injEq] at picked
    obtain ⟨rfl, rfl⟩ := picked
    exact Or.inl ⟨rfl, rfl, stop⟩
  · have launching : state.stopLaunching = false := by simpa using stop
    right
    by_cases idle : (state.readyIndices.isEmpty && state.runningWorkers == 0) = true
    · -- an empty queue makes the scan end at once, so this exit is the second case as well
      simp only [launching, Bool.false_or, idle, if_true, Prod.mk.injEq] at picked
      obtain ⟨rfl, rfl⟩ := picked
      simp only [Bool.and_eq_true, List.isEmpty_iff, beq_iff_eq] at idle
      exact Or.inl ⟨state.readyIndices, rfl, by simp [idle.1, scanReady], Or.inl ⟨rfl, idle.2⟩⟩
    · rw [if_neg (by simp [launching, idle])] at picked
      cases scanned : scanReady plans state state.readyIndices.length state.readyIndices with
      | mk found queue =>
          simp only [scanned] at picked
          cases found with
          | none =>
              left
              by_cases resting : state.runningWorkers = 0
              · rw [if_pos (by simpa using resting), Prod.mk.injEq] at picked
                obtain ⟨rfl, rfl⟩ := picked
                exact ⟨queue, rfl, rfl, Or.inl ⟨rfl, resting⟩⟩
              · rw [if_neg (by simpa using resting), Prod.mk.injEq] at picked
                obtain ⟨rfl, rfl⟩ := picked
                exact ⟨queue, rfl, rfl, Or.inr ⟨rfl, resting⟩⟩
          | some candidate =>
              right
              simp only [Prod.mk.injEq] at picked
              obtain ⟨rfl, rfl⟩ := picked
              exact ⟨candidate, queue, rfl, launching, rfl, rfl⟩

end Pick

section Release

/-- What the loop over the successors does to the shared state. -/
structure Released (failed : Bool) (successors : List Nat) (state next : ParallelExecutionState) :
    Prop where
  pending : ∀ index, next.pendingDependencies index =
    state.pendingDependencies index - successors.count index
  failed : ∀ index, next.failed index = (state.failed index || (failed && decide (index ∈ successors)))
  started : next.started = state.started
  completed : next.completed = state.completed
  busySystems : next.busySystems = state.busySystems
  stopLaunching : next.stopLaunching = state.stopLaunching
  runningWorkers : next.runningWorkers = state.runningWorkers
  kept : ∀ index ∈ state.readyIndices, index ∈ next.readyIndices
  queued : ∀ index ∈ successors, next.pendingDependencies index = 0 →
    next.started index = false → next.completed index = false → next.failed index = false →
    index ∈ next.readyIndices
  subset : ∀ index ∈ next.readyIndices, index ∈ state.readyIndices ∨ index ∈ successors

theorem released_nil (failed : Bool) (state : ParallelExecutionState) :
    Released failed [] state state := by
  constructor <;> simp

/-- `releaseSuccessor` without its guards: at zero the truncated subtraction changes nothing. -/
theorem releaseSuccessor_eq (failed : Bool) (state : ParallelExecutionState) (successor : Nat) :
    releaseSuccessor failed state successor =
      { state with
        pendingDependencies := Function.update state.pendingDependencies successor
          (state.pendingDependencies successor - 1)
        failed := Function.update state.failed successor (state.failed successor || failed)
        readyIndices :=
          if state.pendingDependencies successor - 1 = 0 ∧ state.started successor = false ∧
              state.completed successor = false ∧ (state.failed successor || failed) = false then
            state.readyIndices ++ [successor]
          else state.readyIndices } := by
  have lowered : (if state.pendingDependencies successor > 0 then
      { state with
        pendingDependencies := Function.update state.pendingDependencies successor
          (state.pendingDependencies successor - 1) } else state) =
      { state with
        pendingDependencies := Function.update state.pendingDependencies successor
          (state.pendingDependencies successor - 1) } := by
    split
    · rfl
    · rename_i zero
      have same : state.pendingDependencies successor - 1 = state.pendingDependencies successor := by
        omega
      rw [same, Function.update_eq_self]
  unfold releaseSuccessor
  rw [lowered]
  cases failed with
  | false =>
      simp only [Bool.false_eq_true, if_false, Bool.or_false, Function.update_eq_self,
        Function.update_self, Bool.and_eq_true, beq_iff_eq, Bool.not_eq_true', and_assoc]
      split <;> rfl
  | true =>
      simp only [if_true, Bool.or_true, Function.update_self, Bool.and_eq_true, beq_iff_eq,
        Bool.not_eq_true', and_assoc, Bool.true_eq_false, and_false, if_false]

/-- One more successor; the queue is tested after the count went down and the
failure was passed on. -/
theorem Released.concat {failed : Bool} {successors : List Nat} {state middle : ParallelExecutionState}
    (released : Released failed successors state middle) (successor : Nat) :
    Released failed (successors ++ [successor]) state (releaseSuccessor failed middle successor) := by
  rw [releaseSuccessor_eq]
  constructor
  case pending =>
    intro index
    by_cases same : index = successor
    · subst index
      simp only [Function.update_self, released.pending, List.count_append, List.count_singleton_self]
      omega
    · have apart : successor ≠ index := fun equal => same equal.symm
      simp [Function.update_of_ne same, released.pending, List.count_append, apart]
  case failed =>
    intro index
    by_cases same : index = successor
    · subst index
      cases failed <;> simp [released.failed]
    · simp [released.failed, same]
  case started => exact released.started
  case completed => exact released.completed
  case busySystems => exact released.busySystems
  case stopLaunching => exact released.stopLaunching
  case runningWorkers => exact released.runningWorkers
  case kept =>
    intro index member
    have inMiddle := released.kept index member
    dsimp only
    split
    · exact List.mem_append_left _ inMiddle
    · exact inMiddle
  case queued =>
    intro index member zero fresh running clear
    by_cases same : index = successor
    · subst index
      simp only [Function.update_self] at zero clear
      rw [if_pos ⟨zero, fresh, running, clear⟩]
      exact List.mem_append_right _ List.mem_cons_self
    · simp only [Function.update_of_ne same] at zero clear
      have earlier : index ∈ successors := by
        simpa [same] using member
      have inMiddle := released.queued index earlier zero fresh running clear
      dsimp only
      split
      · exact List.mem_append_left _ inMiddle
      · exact inMiddle
  case subset =>
    intro index member
    have grown : index ∈ middle.readyIndices ∨ index = successor := by
      dsimp only at member
      split at member
      · simpa using member
      · exact Or.inl member
    rcases grown with old | rfl
    · rcases released.subset index old with before | released'
      · exact Or.inl before
      · exact Or.inr (List.mem_append_left _ released')
    · exact Or.inr (List.mem_append_right _ List.mem_cons_self)

theorem foldl_releaseSuccessor_spec (failed : Bool) (successors : List Nat)
    (state : ParallelExecutionState) :
    Released failed successors state (successors.foldl (releaseSuccessor failed) state) := by
  induction successors using List.reverseRecOn with
  | nil => exact released_nil failed state
  | append_singleton successors successor ih =>
      rw [List.foldl_concat]
      exact ih.concat successor

end Release

section Invariant

/-- The shared state as the bookkeeping of the history. -/
structure Bookkeeping (plans : List TaskGroupPlan) (stopOnFirstFailure : Bool)
    (state : ParallelExecutionState) (log : List Observation) : Prop where
  started : ∀ index, state.started index = true ↔ index ∈ startedIndices log
  completed : ∀ index, state.completed index = true ↔ index ∈ completedIndices log
  startedFirst : ∀ index ∈ completedIndices log, index ∈ startedIndices log
  bounded : ∀ index ∈ startedIndices log, index < plans.length
  startedOnce : (startedIndices log).Nodup
  completedOnce : (completedIndices log).Nodup
  pending : ∀ index, index < plans.length →
    state.pendingDependencies index = openIncoming plans log index
  /-- before its start, `failed` means that a group in front of it reported a failure -/
  blocked : ∀ index, index ∉ startedIndices log →
    (state.failed index = true ↔
      ∃ source, ReportedFailure log source ∧ index ∈ successorsOf plans source)
  busy : ∀ system, system ∈ state.busySystems ↔
    ∃ index ∈ runningGroups log, systemOf plans index = system
  exclusive : ∀ first ∈ runningGroups log, ∀ second ∈ runningGroups log,
    systemOf plans first = systemOf plans second → first = second
  running : state.runningWorkers = (runningGroups log).length
  stop : state.stopLaunching = true ↔ stopOnFirstFailure = true ∧ ∃ source, ReportedFailure log source
  queue : ∀ index, index < plans.length → isStale state index = false → index ∈ state.readyIndices
  queueBounded : ∀ index ∈ state.readyIndices, index < plans.length
  gated : Gated plans log
  stops : stopOnFirstFailure = true → StopsAfterFailure log

variable {plans : List TaskGroupPlan} {stopOnFirstFailure : Bool} {state : ParallelExecutionState}
  {log : List Observation}

theorem isStale_eq_false_iff {candidate : Nat} :
    isStale state candidate = false ↔ state.started candidate = false ∧
      state.failed candidate = false ∧ state.pendingDependencies candidate = 0 := by
  simp [isStale, and_assoc]

theorem bookkeeping_initial (consistent : PlansConsistent plans) (workerCount : Nat) {World : Type u}
    (world : World) :
    Bookkeeping plans stopOnFirstFailure (initialScheduler plans workerCount world).state [] where
  started := by simp [initialScheduler]
  completed := by simp [initialScheduler]
  startedFirst := by simp
  bounded := by simp
  startedOnce := by simp
  completedOnce := by simp
  pending := by
    intro index bound
    rw [openIncoming_nil]
    exact consistent.pending index bound
  blocked := by simp [initialScheduler]
  busy := by simp [initialScheduler, runningGroups]
  exclusive := by simp [runningGroups]
  running := by simp [initialScheduler, runningGroups]
  stop := by simp [initialScheduler]
  queue := by
    intro index bound fresh
    have zero := (isStale_eq_false_iff.1 fresh).2.2
    simp only [initialScheduler] at zero ⊢
    simp [bound, zero]
  queueBounded := by
    intro index member
    simp only [initialScheduler, List.mem_filter, List.mem_range] at member
    exact member.1
  gated := gated_nil plans
  stops := fun _ => stopsAfterFailure_nil

/-- The scan may drop stale candidates and rotate the others. -/
theorem Bookkeeping.requeue (valid : Bookkeeping plans stopOnFirstFailure state log) {queue : List Nat}
    (kept : ∀ index ∈ state.readyIndices, isStale state index = false → index ∈ queue)
    (subset : ∀ index ∈ queue, index ∈ state.readyIndices) :
    Bookkeeping plans stopOnFirstFailure { state with readyIndices := queue } log :=
  { valid with
    queue := fun index bound fresh => kept index (valid.queue index bound fresh) fresh
    queueBounded := fun index member => valid.queueBounded index (subset index member) }

/-- A group the scan selected may be started: what it waited for has completed
without a failure. -/
theorem Bookkeeping.start_allowed (valid : Bookkeeping plans stopOnFirstFailure state log)
    {candidate : Nat} (bound : candidate < plans.length) (fresh : isStale state candidate = false) :
    candidate ∉ startedIndices log ∧ ∀ source, candidate ∈ successorsOf plans source →
      source ∈ completedIndices log ∧ ¬ ReportedFailure log source := by
  obtain ⟨unstarted, clear, zero⟩ := isStale_eq_false_iff.1 fresh
  have absent : candidate ∉ startedIndices log := by
    intro member
    rw [(valid.started candidate).mpr member] at unstarted
    simp at unstarted
  refine ⟨absent, fun source edge => ⟨?_, fun reported => ?_⟩⟩
  · rw [valid.pending candidate bound] at zero
    exact completed_of_openIncoming_eq_zero zero edge
  · rw [(valid.blocked candidate absent).mpr ⟨source, reported, edge⟩] at clear
    simp at clear

theorem Bookkeeping.start (valid : Bookkeeping plans stopOnFirstFailure state log)
    {candidate : Nat} {queue : List Nat} (bound : candidate < plans.length)
    (fresh : isStale state candidate = false)
    (idle : systemOf plans candidate ∉ state.busySystems) (launching : state.stopLaunching = false)
    (kept : ∀ index ∈ state.readyIndices, isStale state index = false → index ≠ candidate →
      index ∈ queue)
    (subset : ∀ index ∈ queue, index ∈ state.readyIndices) :
    Bookkeeping plans stopOnFirstFailure
      { state with
        readyIndices := queue
        started := Function.update state.started candidate true
        busySystems := insert (systemOf plans candidate) state.busySystems
        runningWorkers := state.runningWorkers + 1 }
      (log ++ [.started candidate]) := by
  obtain ⟨absent, allowed⟩ := valid.start_allowed bound fresh
  have uncompleted : candidate ∉ completedIndices log :=
    fun member => absent (valid.startedFirst candidate member)
  have running := runningGroups_started uncompleted
  have noConflict : ∀ index ∈ runningGroups log, systemOf plans index ≠ systemOf plans candidate :=
    fun index member same => idle ((valid.busy _).mpr ⟨index, member, same⟩)
  constructor
  case started =>
    intro index
    by_cases same : index = candidate
    · simp [same]
    · simp [valid.started, same]
  case completed => simpa using valid.completed
  case startedFirst =>
    intro index member
    rw [completedIndices_started] at member
    rw [startedIndices_started]
    exact List.mem_append_left _ (valid.startedFirst index member)
  case bounded =>
    intro index member
    rw [startedIndices_started] at member
    rcases List.mem_append.mp member with old | new
    · exact valid.bounded index old
    · rw [List.mem_singleton.mp new]
      exact bound
  case startedOnce =>
    rw [startedIndices_started]
    exact List.concat_eq_append ▸ valid.startedOnce.concat absent
  case completedOnce => simpa using valid.completedOnce
  case pending => simpa using valid.pending
  case blocked =>
    intro index absentAfter
    simp only [startedIndices_started, List.mem_append, not_or] at absentAfter
    simpa using valid.blocked index absentAfter.1
  case busy =>
    intro system
    rw [running, Finset.mem_insert, valid.busy]
    constructor
    · rintro (rfl | ⟨index, member, same⟩)
      · exact ⟨candidate, by simp, rfl⟩
      · exact ⟨index, List.mem_append_left _ member, same⟩
    · rintro ⟨index, member, same⟩
      rcases List.mem_append.mp member with old | new
      · exact Or.inr ⟨index, old, same⟩
      · rw [List.mem_singleton.mp new] at same
        exact Or.inl same.symm
  case exclusive =>
    intro first firstMember second secondMember same
    rw [running] at firstMember secondMember
    rcases List.mem_append.mp firstMember with old | new
    · rcases List.mem_append.mp secondMember with old' | new'
      · exact valid.exclusive first old second old' same
      · rw [List.mem_singleton.mp new'] at same
        exact absurd same (noConflict first old)
    · rw [List.mem_singleton.mp new] at same ⊢
      rcases List.mem_append.mp secondMember with old' | new'
      · exact absurd same.symm (noConflict second old')
      · exact (List.mem_singleton.mp new').symm
  case running => simp [running, valid.running]
  case stop => simpa using valid.stop
  case queue =>
    intro index indexBound stillFresh
    obtain ⟨unstarted, clear, zero⟩ := isStale_eq_false_iff.1 stillFresh
    have different : index ≠ candidate := by
      rintro rfl
      simp at unstarted
    simp only [Function.update_of_ne different] at unstarted
    have before := isStale_eq_false_iff.2 ⟨unstarted, clear, zero⟩
    exact kept index (valid.queue index indexBound before) before different
  case queueBounded => exact fun index member => valid.queueBounded index (subset index member)
  case gated =>
    apply valid.gated.concat
    intro index same source edge
    obtain rfl := Observation.started.inj same
    exact allowed source edge
  case stops =>
    intro stopping
    apply (valid.stops stopping).concat
    intro index _ source reported
    rw [valid.stop.mpr ⟨stopping, source, reported⟩] at launching
    simp at launching

/-- The completion-step is the loop over the successors between two assignments. -/
theorem complete_eq (plans : List TaskGroupPlan) (stopOnFirstFailure : Bool)
    (state : ParallelExecutionState) (index : Nat) (failed : Bool) :
    ∃ released, Released failed (successorsOf plans index)
        { state with
          completed := Function.update state.completed index true
          failed := Function.update state.failed index failed
          busySystems := state.busySystems.erase (systemOf plans index) } released ∧
      complete plans stopOnFirstFailure state index failed =
        { released with
          stopLaunching := released.stopLaunching || (failed && stopOnFirstFailure)
          runningWorkers := released.runningWorkers - 1 } := by
  refine ⟨_, foldl_releaseSuccessor_spec failed (successorsOf plans index) _, ?_⟩
  simp only [complete]
  generalize (successorsOf plans index).foldl (releaseSuccessor failed) _ = released
  by_cases stopping : (failed && stopOnFirstFailure) = true
  · rw [if_pos stopping, stopping, Bool.or_true]
    split
    · rfl
    · rename_i zero
      have same : released.runningWorkers - 1 = released.runningWorkers := by
        simp only at zero
        omega
      rw [same]
  · have launching : (failed && stopOnFirstFailure) = false := by simpa using stopping
    rw [if_neg stopping, launching, Bool.or_false]
    split
    · rfl
    · rename_i zero
      have same : released.runningWorkers - 1 = released.runningWorkers := by omega
      rw [same]

theorem Bookkeeping.complete (valid : Bookkeeping plans stopOnFirstFailure state log)
    (consistent : PlansConsistent plans) {index : Nat} (running : index ∈ runningGroups log)
    (records : List TransactionRecord) :
    Bookkeeping plans stopOnFirstFailure
      (complete plans stopOnFirstFailure state index (hasFailure records))
      (log ++ [.completed index records]) := by
  obtain ⟨started, uncompleted⟩ := mem_runningGroups.1 running
  have bound := valid.bounded index started
  obtain ⟨released, spec, equal⟩ := complete_eq plans stopOnFirstFailure state index (hasFailure records)
  have distinct : (runningGroups log).Nodup := valid.startedOnce.filter _
  have remaining : runningGroups (log ++ [.completed index records]) =
      (runningGroups log).erase index := by
    rw [runningGroups_completed, distinct.erase_eq_filter]
    apply List.filter_congr
    intro other _
    by_cases same : other = index <;> simp [same]
  rw [equal]
  constructor
  case started => simpa [spec.started] using valid.started
  case completed =>
    intro other
    by_cases same : other = index
    · simp [spec.completed, same]
    · simp [spec.completed, same, valid.completed]
  case startedFirst =>
    intro other member
    rw [completedIndices_completed] at member
    rw [startedIndices_completed]
    rcases List.mem_append.mp member with old | new
    · exact valid.startedFirst other old
    · rw [List.mem_singleton.mp new]
      exact started
  case bounded => simpa using valid.bounded
  case startedOnce => simpa using valid.startedOnce
  case completedOnce =>
    rw [completedIndices_completed]
    exact List.concat_eq_append ▸ valid.completedOnce.concat uncompleted
  case pending =>
    intro other otherBound
    rw [openIncoming_completed bound uncompleted]
    simp only [spec.pending, valid.pending other otherBound]
  case blocked =>
    intro other absent
    rw [startedIndices_completed] at absent
    have different : other ≠ index := fun same => absent (same ▸ started)
    have before := valid.blocked other absent
    simp only [spec.failed, Function.update_of_ne different, Bool.or_eq_true, Bool.and_eq_true,
      decide_eq_true_eq, before, reportedFailure_completed]
    constructor
    · rintro (⟨source, reported, edge⟩ | ⟨failed, edge⟩)
      · exact ⟨source, Or.inl reported, edge⟩
      · exact ⟨index, Or.inr ⟨rfl, failed⟩, edge⟩
    · rintro ⟨source, reported | ⟨rfl, failed⟩, edge⟩
      · exact Or.inl ⟨source, reported, edge⟩
      · exact Or.inr ⟨failed, edge⟩
  case busy =>
    intro system
    simp only [spec.busySystems, Finset.mem_erase, valid.busy, remaining, distinct.mem_erase_iff]
    constructor
    · rintro ⟨apart, other, member, same⟩
      refine ⟨other, ⟨?_, member⟩, same⟩
      rintro rfl
      exact apart same.symm
    · rintro ⟨other, ⟨different, member⟩, same⟩
      refine ⟨?_, other, member, same⟩
      rintro rfl
      exact different (valid.exclusive other member index running same)
  case exclusive =>
    intro first firstMember second secondMember same
    rw [remaining] at firstMember secondMember
    exact valid.exclusive first (List.mem_of_mem_erase firstMember) second
      (List.mem_of_mem_erase secondMember) same
  case running =>
    simp only [spec.runningWorkers, valid.running, remaining, List.length_erase_of_mem running]
  case stop =>
    simp only [spec.stopLaunching, Bool.or_eq_true, Bool.and_eq_true, valid.stop,
      reportedFailure_completed]
    constructor
    · rintro (⟨stopping, source, reported⟩ | ⟨failed, stopping⟩)
      · exact ⟨stopping, source, Or.inl reported⟩
      · exact ⟨stopping, index, Or.inr ⟨rfl, failed⟩⟩
    · rintro ⟨stopping, source, reported | ⟨_, failed⟩⟩
      · exact Or.inl ⟨stopping, source, reported⟩
      · exact Or.inr ⟨failed, stopping⟩
  case queue =>
    intro other otherBound fresh
    obtain ⟨unstarted, clear, zero⟩ := isStale_eq_false_iff.1 fresh
    by_cases released' : other ∈ successorsOf plans index
    · have incomplete : released.completed other = false := by
        rw [spec.started] at unstarted
        have absent : other ∉ startedIndices log := by
          intro member
          simp [(valid.started other).mpr member] at unstarted
        have different : other ≠ index := fun same => absent (same ▸ started)
        rw [spec.completed]
        simp only [Function.update_of_ne different]
        rw [← Bool.not_eq_true, valid.completed]
        exact fun member => absent (valid.startedFirst other member)
      exact spec.queued other released' zero unstarted incomplete clear
    · apply spec.kept
      apply valid.queue other otherBound
      have uncounted : (successorsOf plans index).count other = 0 := List.count_eq_zero.mpr released'
      have different : other ≠ index := by
        rintro rfl
        rw [spec.started, (valid.started other).mpr started] at unstarted
        simp at unstarted
      simp only [spec.started] at unstarted
      simp only [spec.failed, Function.update_of_ne different, released', decide_false,
        Bool.and_false, Bool.or_false] at clear
      simp only [spec.pending, uncounted, Nat.sub_zero] at zero
      exact isStale_eq_false_iff.2 ⟨unstarted, clear, zero⟩
  case queueBounded =>
    intro other member
    rcases spec.subset other member with old | released'
    · exact valid.queueBounded other old
    · exact consistent.bounded index other released'
  case gated =>
    apply valid.gated.concat
    intro other same
    simp at same
  case stops =>
    intro stopping
    apply (valid.stops stopping).concat
    intro other same
    simp at same

end Invariant

end ReqPack.Scheduler
