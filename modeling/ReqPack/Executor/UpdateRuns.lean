import Mathlib.Data.Finset.Card
import ReqPack.Data.ScanQueue
import ReqPack.Executor.SystemUpdates

/-! # Runs of the update workers

What holds in every state the workers of `updateSystems` can reach when no failure
stops them: every task is started at most once, no system is updated by two workers
at the same time, and a worker leaves only when nothing is left to do.
-/

namespace ReqPack.Executor

open ReqPack.Data ReqPack.Core ReqPack.Planner ReqPack.Scheduler

/-! ## Tasks -/

section Tasks

variable {env : UpdateEnv} {requests : List Request}

theorem updateTask_index {entry : Request × Nat} {task : UpdateTask} (made : updateTask env entry = some task) :
    task.requestIndex = entry.2 := by
  rw [updateTask] at made
  split at made
  · cases made
  · obtain ⟨resolved, -, rfl⟩ := Option.map_eq_some_iff.mp made
    rfl

theorem filterMap_index_sublist (entries : List (Request × Nat)) :
    ((entries.filterMap (updateTask env)).map (·.requestIndex)).Sublist (entries.map (·.2)) := by
  induction entries with
  | nil => exact List.Sublist.slnil
  | cons entry entries ih =>
      cases made : updateTask env entry with
      | none =>
          rw [List.filterMap_cons_none made]
          exact ih.cons _
      | some task =>
          rw [List.filterMap_cons_some made, List.map_cons, List.map_cons, updateTask_index made]
          exact ih.cons_cons _

/-- The tasks stand in the order of their requests, one for a request. -/
theorem updateTasks_index_sublist (env : UpdateEnv) (requests : List Request) :
    ((updateTasks env requests).map (·.requestIndex)).Sublist (List.range requests.length) := by
  have indices : requests.zipIdx.map (·.2) = List.range requests.length := by
    rw [List.zipIdx_map_snd, List.range_eq_range']
  rw [updateTasks, List.map_map, ← indices]
  exact filterMap_index_sublist requests.zipIdx

/-- What the two paths need of the tasks: no two of them store the same bit. -/
def DistinctSlots (tasks : List UpdateTask) : Prop := (tasks.map (·.requestIndex)).Nodup

theorem updateTasks_distinct (env : UpdateEnv) (requests : List Request) : DistinctSlots (updateTasks env requests) :=
  (updateTasks_index_sublist env requests).nodup List.nodup_range

theorem slotAt_getElem? {tasks : List UpdateTask} {index : Nat} (bound : index < tasks.length) :
    (tasks.map (·.requestIndex))[index]? = some (slotAt tasks index) := by
  rw [List.getElem?_map, slotAt, List.getD_eq_getElem?_getD, List.getElem?_eq_getElem bound]
  rfl

theorem slotAt_lt {index : Nat} (bound : index < (updateTasks env requests).length) :
    slotAt (updateTasks env requests) index < requests.length :=
  List.mem_range.mp ((updateTasks_index_sublist env requests).subset (List.mem_of_getElem? (slotAt_getElem? bound)))

theorem slotAt_inj {tasks : List UpdateTask} (distinct : DistinctSlots tasks) {index other : Nat}
    (bound : index < tasks.length) (otherBound : other < tasks.length)
    (same : slotAt tasks index = slotAt tasks other) : index = other :=
  (List.getElem?_inj (by rwa [List.length_map]) distinct).mp
    (by rw [slotAt_getElem? bound, slotAt_getElem? otherBound, same])

end Tasks

/-! ## What a worker does in one step -/

section Moves

variable {width : Nat} {tasks : List UpdateTask} {outcome : TaskGroup → Bool} {current next : UpdateRun}

/-- The systems that keep a candidate waiting. -/
def busyAt (tasks : List UpdateTask) (state : ParallelUpdateState) (index : Nat) : Bool :=
  systemAt tasks index ∈ state.busySystems

theorem scanTasks_eq (state : ParallelUpdateState) (attempts : Nat) (queue : List Nat) :
    scanTasks tasks state attempts queue = scanQueue state.started (busyAt tasks state) attempts queue := by
  induction attempts generalizing queue with
  | zero => cases queue <;> rfl
  | succ attempts ih =>
      cases queue with
      | nil => rfl
      | cons candidate queue => simp only [scanTasks, scanQueue, ih, busyAt, decide_eq_true_eq]

theorem scanTasks_turn (state : ParallelUpdateState) :
    Scanned state.started (busyAt tasks state) state.readyIndices state.readyIndices
      (scanTasks tasks state state.readyIndices.length state.readyIndices) := by
  rw [scanTasks_eq]
  exact scanQueue_turn state.readyIndices

/-- A task is taken. -/
def startTask (tasks : List UpdateTask) (state : ParallelUpdateState) (candidate : Nat) (queue : List Nat) :
    ParallelUpdateState :=
  { state with
    readyIndices := queue
    started := Function.update state.started candidate true
    busySystems := insert (systemAt tasks candidate) state.busySystems
    runningWorkers := state.runningWorkers + 1 }

/-- Everything a pick-step can do. -/
theorem pickTask_cases {state after : ParallelUpdateState} {picked : UpdatePick}
    (launching : state.stopLaunching = false) (step : pickTask tasks state = (picked, after)) :
    (∃ queue, after = { state with readyIndices := queue } ∧
        scanTasks tasks state state.readyIndices.length state.readyIndices = (none, queue) ∧
        (picked = .leave ∧ state.runningWorkers = 0 ∨ picked = .wait ∧ state.runningWorkers ≠ 0)) ∨
      ∃ candidate queue, picked = .start candidate ∧ after = startTask tasks state candidate queue ∧
        scanTasks tasks state state.readyIndices.length state.readyIndices = (some candidate, queue) := by
  unfold pickTask at step
  by_cases idle : (state.readyIndices.isEmpty && state.runningWorkers == 0) = true
  · -- an empty queue makes the scan end at once
    simp only [launching, Bool.false_or, idle, if_true, Prod.mk.injEq] at step
    obtain ⟨rfl, rfl⟩ := step
    simp only [Bool.and_eq_true, List.isEmpty_iff, beq_iff_eq] at idle
    exact Or.inl ⟨state.readyIndices, rfl, by simp [idle.1, scanTasks], Or.inl ⟨rfl, idle.2⟩⟩
  · rw [if_neg (by simp [launching, idle])] at step
    cases scanned : scanTasks tasks state state.readyIndices.length state.readyIndices with
    | mk found queue =>
        simp only [scanned] at step
        cases found with
        | none =>
            by_cases resting : state.runningWorkers = 0
            · rw [if_pos (by simpa using resting), Prod.mk.injEq] at step
              obtain ⟨rfl, rfl⟩ := step
              exact Or.inl ⟨queue, rfl, rfl, Or.inl ⟨rfl, resting⟩⟩
            · rw [if_neg (by simpa using resting), Prod.mk.injEq] at step
              obtain ⟨rfl, rfl⟩ := step
              exact Or.inl ⟨queue, rfl, rfl, Or.inr ⟨rfl, resting⟩⟩
        | some candidate =>
            simp only [Prod.mk.injEq] at step
            obtain ⟨rfl, rfl⟩ := step
            exact Or.inr ⟨candidate, queue, rfl, rfl, rfl⟩

theorem completeTask_eq (state : ParallelUpdateState) (index : Nat) (ok : Bool) :
    completeTask tasks false state index ok =
      { state with
        completed := Function.update state.completed index true
        failed := Function.update state.failed index (!ok)
        busySystems := state.busySystems.erase (systemAt tasks index)
        runningWorkers := state.runningWorkers - 1 } := by
  unfold completeTask
  simp only [Bool.and_false, Bool.false_eq_true, if_false]
  split
  · rfl
  · next resting =>
      have zero : state.runningWorkers = 0 := by simpa using resting
      rw [zero]

/-- What one step of one worker does while no failure stops the workers. -/
inductive UpdateMove (width : Nat) (tasks : List UpdateTask) (outcome : TaskGroup → Bool) (current : UpdateRun) :
    UpdateEvent → UpdateRun → Prop where
  | leave {worker : Nat} {queue : List Nat} (bound : worker < current.workerCount)
      (before : current.workers worker = .picking) (resting : current.state.runningWorkers = 0)
      (scanned : Scanned current.state.started (busyAt tasks current.state) current.state.readyIndices
        current.state.readyIndices (none, queue)) :
      UpdateMove width tasks outcome current (.pick worker)
        ({ current with state := { current.state with readyIndices := queue } }.setPhase worker .exited)
  | wait {worker : Nat} {queue : List Nat} (bound : worker < current.workerCount)
      (before : current.workers worker = .picking) (working : current.state.runningWorkers ≠ 0)
      (scanned : Scanned current.state.started (busyAt tasks current.state) current.state.readyIndices
        current.state.readyIndices (none, queue)) :
      UpdateMove width tasks outcome current (.pick worker)
        ({ current with state := { current.state with readyIndices := queue } }.setPhase worker .waiting)
  | start {worker candidate : Nat} {queue : List Nat} (bound : worker < current.workerCount)
      (before : current.workers worker = .picking)
      (scanned : Scanned current.state.started (busyAt tasks current.state) current.state.readyIndices
        current.state.readyIndices (some candidate, queue)) :
      UpdateMove width tasks outcome current (.pick worker)
        ({ current with
          state := startTask tasks current.state candidate queue
          starts := current.starts ++ [candidate] }.setPhase worker (.executing candidate))
  | execute {worker index : Nat} (before : current.workers worker = .executing index) :
      UpdateMove width tasks outcome current (.execute worker)
        (current.setPhase worker (.executed index (outcomeAt tasks outcome index)))
  | load {worker index : Nat} {ok : Bool} (before : current.workers worker = .executed index ok) :
      UpdateMove width tasks outcome current (.load worker)
        (current.setPhase worker (.loaded index ok (readWord width current.results (slotAt tasks index))))
  | store {worker index : Nat} {ok : Bool} {word : Nat → Bool}
      (before : current.workers worker = .loaded index ok word) :
      UpdateMove width tasks outcome current (.store worker)
        ({ current with
          results := writeWord width current.results (slotAt tasks index)
            (setInWord width word (slotAt tasks index) ok)
          stores := current.stores ++ [index] }.setPhase worker (.stored index ok))
  | complete {worker index : Nat} {ok : Bool} (before : current.workers worker = .stored index ok) :
      UpdateMove width tasks outcome current (.complete worker)
        ({ current with
          state := completeTask tasks false current.state index ok }.setPhase worker .notifying)
  | notify {worker : Nat} (before : current.workers worker = .notifying) :
      UpdateMove width tasks outcome current (.notify worker)
        { current with workers := fun other => (Function.update current.workers worker .picking other).woken }
  | wake {worker : Nat} (before : current.workers worker = .waiting) :
      UpdateMove width tasks outcome current (.wake worker) (current.setPhase worker .picking)

theorem updateStep_pick {worker : Nat} (launching : current.state.stopLaunching = false)
    (accepted : updateStep width tasks outcome false current (.pick worker) = some next) :
    UpdateMove width tasks outcome current (.pick worker) next := by
  simp only [updateStep] at accepted
  split at accepted
  · next before =>
      by_cases bound : worker < current.workerCount
      · rw [if_pos bound] at accepted
        cases picked : pickTask tasks current.state with
        | mk outcome state =>
            simp only [picked] at accepted
            have turn := @scanTasks_turn tasks current.state
            rcases pickTask_cases launching picked with ⟨queue, rfl, scanned, ending⟩ |
              ⟨candidate, queue, rfl, rfl, scanned⟩
            · rw [scanned] at turn
              rcases ending with ⟨rfl, resting⟩ | ⟨rfl, working⟩
              · obtain rfl := Option.some.inj accepted
                exact .leave bound before resting turn
              · obtain rfl := Option.some.inj accepted
                exact .wait bound before working turn
            · rw [scanned] at turn
              obtain rfl := Option.some.inj accepted
              exact .start bound before turn
      · rw [if_neg bound] at accepted
        cases accepted
  · cases accepted

/-- Every accepted event is one of the moves. -/
theorem updateStep_move {event : UpdateEvent} (launching : current.state.stopLaunching = false)
    (accepted : updateStep width tasks outcome false current event = some next) :
    UpdateMove width tasks outcome current event next := by
  cases event with
  | pick worker => exact updateStep_pick launching accepted
  | execute worker =>
      simp only [updateStep] at accepted
      split at accepted
      · next before =>
          obtain rfl := Option.some.inj accepted
          exact .execute before
      · cases accepted
  | load worker =>
      simp only [updateStep] at accepted
      split at accepted
      · next before =>
          obtain rfl := Option.some.inj accepted
          exact .load before
      · cases accepted
  | store worker =>
      simp only [updateStep] at accepted
      split at accepted
      · next before =>
          obtain rfl := Option.some.inj accepted
          exact .store before
      · cases accepted
  | complete worker =>
      simp only [updateStep] at accepted
      split at accepted
      · next before =>
          obtain rfl := Option.some.inj accepted
          exact .complete before
      · cases accepted
  | notify worker =>
      simp only [updateStep] at accepted
      split at accepted
      · next before =>
          obtain rfl := Option.some.inj accepted
          exact .notify before
      · cases accepted
  | wake worker =>
      simp only [updateStep] at accepted
      split at accepted
      · next before =>
          obtain rfl := Option.some.inj accepted
          exact .wake before
      · cases accepted

end Moves

/-! ## The queue and the starts -/

section Ledger

variable {tasks : List UpdateTask} {state : ParallelUpdateState} {starts : List Nat} {blocked : Nat → Bool}
  {queue : List Nat}

structure Ledger (tasks : List UpdateTask) (state : ParallelUpdateState) (starts : List Nat) : Prop where
  launching : state.stopLaunching = false
  started : ∀ index, state.started index = true ↔ index ∈ starts
  once : starts.Nodup
  bounded : ∀ index ∈ starts, index < tasks.length
  queued : ∀ index < tasks.length, index ∉ starts → index ∈ state.readyIndices
  queue : ∀ index ∈ state.readyIndices, index < tasks.length

theorem Ledger.not_started (ledger : Ledger tasks state starts) {index : Nat} :
    state.started index = false ↔ index ∉ starts := by
  rw [← ledger.started, Bool.not_eq_true]

theorem Ledger.requeue (ledger : Ledger tasks state starts)
    (scanned : Scanned state.started blocked state.readyIndices state.readyIndices (none, queue)) :
    Ledger tasks { state with readyIndices := queue } starts :=
  { ledger with
    queued := fun index bound fresh =>
      scanned.kept index (ledger.queued index bound fresh) (ledger.not_started.2 fresh) (by simp)
    queue := fun index member => ledger.queue index (scanned.subset index member) }

theorem Ledger.start (ledger : Ledger tasks state starts) {candidate : Nat}
    (scanned : Scanned state.started blocked state.readyIndices state.readyIndices (some candidate, queue)) :
    Ledger tasks (startTask tasks state candidate queue) (starts ++ [candidate]) := by
  obtain ⟨member, fresh, -⟩ := scanned.found candidate rfl
  have new : candidate ∉ starts := ledger.not_started.1 fresh
  refine ⟨ledger.launching, fun index => ?_, ?_, fun index started => ?_, fun index bound absent => ?_,
    fun index later => ledger.queue index (scanned.subset index later)⟩
  · simp only [startTask, Function.update_apply, List.mem_append, List.mem_singleton, ← ledger.started]
    split <;> simp [*]
  · rw [List.nodup_append]
    refine ⟨ledger.once, List.nodup_singleton _, ?_⟩
    intro index inside other last same
    rw [List.mem_singleton.mp last] at same
    exact new (same ▸ inside)
  · rcases List.mem_append.mp started with before | last
    · exact ledger.bounded index before
    · rw [List.mem_singleton.mp last]
      exact ledger.queue candidate member
  · rw [List.mem_append, List.mem_singleton, not_or] at absent
    refine scanned.kept index (ledger.queued index bound absent.1) (ledger.not_started.2 absent.1) ?_
    intro same
    exact absent.2 (Option.some.inj same).symm

end Ledger

/-! ## Who holds which task -/

section Holders

variable {width : Nat} {tasks : List UpdateTask} {outcome : TaskGroup → Bool} {current next : UpdateRun}
  {worker other index : Nat} {phase : UpdatePhase}

def UpdateRun.holds (current : UpdateRun) (worker : Nat) : Option Nat := (current.workers worker).task

def UpdateRun.holders (current : UpdateRun) : Finset Nat :=
  (Finset.range current.workerCount).filter fun worker => (current.holds worker).isSome

@[simp] theorem setPhase_self : (current.setPhase worker phase).workers worker = phase :=
  Function.update_self ..

theorem setPhase_ne (different : other ≠ worker) :
    (current.setPhase worker phase).workers other = current.workers other :=
  Function.update_of_ne different ..

@[simp] theorem setPhase_holds_self : (current.setPhase worker phase).holds worker = phase.task := by
  rw [UpdateRun.holds, setPhase_self]

theorem setPhase_holds_ne (different : other ≠ worker) :
    (current.setPhase worker phase).holds other = current.holds other := by
  rw [UpdateRun.holds, UpdateRun.holds, setPhase_ne different]

structure Holders (tasks : List UpdateTask) (current : UpdateRun) : Prop where
  inside : ∀ worker, current.workerCount ≤ worker → current.workers worker = .picking
  held : ∀ worker index, current.holds worker = some index → index ∈ current.starts
  alone : ∀ first second index other, current.holds first = some index → current.holds second = some other →
    systemAt tasks index = systemAt tasks other → first = second
  busy : ∀ system, system ∈ current.state.busySystems ↔
    ∃ worker index, current.holds worker = some index ∧ systemAt tasks index = system
  running : current.state.runningWorkers = current.holders.card

theorem Holders.holds_lt (holders : Holders tasks current) (held : current.holds worker = some index) :
    worker < current.workerCount := by
  by_contra outside
  rw [UpdateRun.holds, holders.inside worker (Nat.not_lt.mp outside)] at held
  cases held

theorem Holders.mem_holders (holders : Holders tasks current) (held : current.holds worker = some index) :
    worker ∈ current.holders := by
  rw [UpdateRun.holders, Finset.mem_filter, Finset.mem_range, held]
  exact ⟨holders.holds_lt held, rfl⟩

/-- Steps that move no task keep it. -/
theorem Holders.same (holders : Holders tasks current) (count : next.workerCount = current.workerCount)
    (starts : next.starts = current.starts) (busy : next.state.busySystems = current.state.busySystems)
    (running : next.state.runningWorkers = current.state.runningWorkers)
    (holds : ∀ worker, next.holds worker = current.holds worker)
    (inside : ∀ worker, current.workerCount ≤ worker → next.workers worker = .picking) : Holders tasks next := by
  have equal : next.holders = current.holders := by
    simp only [UpdateRun.holders, count, holds]
  refine ⟨by rwa [count], ?_, ?_, ?_, ?_⟩
  · simpa only [holds, starts] using holders.held
  · simpa only [holds] using holders.alone
  · simpa only [holds, busy] using holders.busy
  · rw [running, equal, holders.running]

theorem Holders.start (holders : Holders tasks current) {state : ParallelUpdateState} {candidate : Nat}
    (bound : worker < current.workerCount) (before : current.workers worker = .picking)
    (idle : systemAt tasks candidate ∉ current.state.busySystems)
    (busy : state.busySystems = insert (systemAt tasks candidate) current.state.busySystems)
    (running : state.runningWorkers = current.state.runningWorkers + 1) :
    Holders tasks ({ current with
      state := state, starts := current.starts ++ [candidate] }.setPhase worker (.executing candidate)) := by
  have none : current.holds worker = none := by rw [UpdateRun.holds, before]; rfl
  have free : ∀ other index, current.holds other = some index → systemAt tasks index ≠ systemAt tasks candidate := by
    intro other index held same
    exact idle ((holders.busy _).mpr ⟨other, index, held, same⟩)
  refine ⟨fun other outside => ?_, fun other index held => ?_, fun first second index other one two same => ?_,
    fun system => ?_, ?_⟩
  · rw [setPhase_ne (Nat.ne_of_gt (Nat.lt_of_lt_of_le bound outside))]
    exact holders.inside other outside
  · by_cases here : other = worker
    · rw [here, setPhase_holds_self] at held
      obtain rfl := Option.some.inj held
      exact List.mem_append_right _ (List.mem_singleton.mpr rfl)
    · rw [setPhase_holds_ne here] at held
      exact List.mem_append_left _ (holders.held other index held)
  · by_cases here : first = worker
    · by_cases there : second = worker
      · rw [here, there]
      · rw [here, setPhase_holds_self] at one
        rw [setPhase_holds_ne there] at two
        obtain rfl := Option.some.inj one
        exact absurd same.symm (free second other two)
    · rw [setPhase_holds_ne here] at one
      by_cases there : second = worker
      · rw [there, setPhase_holds_self] at two
        obtain rfl := Option.some.inj two
        exact absurd same (free first index one)
      · rw [setPhase_holds_ne there] at two
        exact holders.alone first second index other one two same
  · change system ∈ state.busySystems ↔ _
    rw [busy, Finset.mem_insert, holders.busy]
    constructor
    · rintro (rfl | ⟨other, index, held, same⟩)
      · exact ⟨worker, candidate, setPhase_holds_self, rfl⟩
      · refine ⟨other, index, ?_, same⟩
        rwa [setPhase_holds_ne]
        rintro rfl
        rw [none] at held
        cases held
    · rintro ⟨other, index, held, same⟩
      by_cases here : other = worker
      · rw [here, setPhase_holds_self] at held
        obtain rfl := Option.some.inj held
        exact Or.inl same.symm
      · rw [setPhase_holds_ne here] at held
        exact Or.inr ⟨other, index, held, same⟩
  · change state.runningWorkers = _
    have outside : worker ∉ current.holders := by simp [UpdateRun.holders, none]
    have grown : UpdateRun.holders ({ current with
        state := state, starts := current.starts ++ [candidate] }.setPhase worker (.executing candidate)) =
        insert worker current.holders := by
      ext other
      simp only [UpdateRun.holders, Finset.mem_filter, Finset.mem_range, Finset.mem_insert]
      by_cases here : other = worker
      · rw [here, setPhase_holds_self]
        exact iff_of_true ⟨bound, rfl⟩ (Or.inl rfl)
      · rw [setPhase_holds_ne here]
        exact (or_iff_right here).symm
    rw [grown, Finset.card_insert_of_notMem outside, ← holders.running, running]

theorem Holders.release (holders : Holders tasks current) {state : ParallelUpdateState}
    (held : current.holds worker = some index)
    (busy : state.busySystems = current.state.busySystems.erase (systemAt tasks index))
    (running : state.runningWorkers = current.state.runningWorkers - 1) (done : phase.task = none) :
    Holders tasks ({ current with state := state }.setPhase worker phase) := by
  have bound := holders.holds_lt held
  refine ⟨fun other outside => ?_, fun other task => ?_, fun first second task other one two same => ?_,
    fun system => ?_, ?_⟩
  · rw [setPhase_ne (Nat.ne_of_gt (Nat.lt_of_lt_of_le bound outside))]
    exact holders.inside other outside
  · by_cases here : other = worker
    · rw [here, setPhase_holds_self, done]
      intro impossible
      cases impossible
    · rw [setPhase_holds_ne here]
      exact holders.held other task
  · have apart : ∀ other task, ({ current with state := state }.setPhase worker phase).holds other = some task →
        current.holds other = some task := by
      intro other task kept
      by_cases here : other = worker
      · rw [here, setPhase_holds_self, done] at kept
        cases kept
      · rwa [setPhase_holds_ne here] at kept
    exact holders.alone first second task other (apart first task one) (apart second other two) same
  · change system ∈ state.busySystems ↔ _
    rw [busy, Finset.mem_erase, holders.busy]
    constructor
    · rintro ⟨different, other, task, kept, rfl⟩
      refine ⟨other, task, ?_, rfl⟩
      rwa [setPhase_holds_ne]
      rintro rfl
      rw [held] at kept
      exact different (congrArg _ (Option.some.inj kept).symm)
    · rintro ⟨other, task, kept, rfl⟩
      by_cases here : other = worker
      · rw [here, setPhase_holds_self, done] at kept
        cases kept
      · rw [setPhase_holds_ne here] at kept
        exact ⟨fun same => here (holders.alone other worker task index kept held same), other, task, kept, rfl⟩
  · change state.runningWorkers = _
    have shrunk : UpdateRun.holders ({ current with state := state }.setPhase worker phase) =
        current.holders.erase worker := by
      ext other
      simp only [UpdateRun.holders, Finset.mem_filter, Finset.mem_range, Finset.mem_erase]
      by_cases here : other = worker
      · rw [here, setPhase_holds_self, done]
        simp
      · rw [setPhase_holds_ne here]
        exact (and_iff_right here).symm
    rw [shrunk, Finset.card_erase_of_mem (holders.mem_holders held), ← holders.running, running]

end Holders

/-! ## What is stored, and who leaves -/

/-- The task whose result is still to be stored. -/
def UpdatePhase.pending : UpdatePhase → Option Nat
  | .executing index => some index
  | .executed index _ => some index
  | .loaded index _ _ => some index
  | _ => none

def UpdatePhase.result : UpdatePhase → Option (Nat × Bool)
  | .executed index ok => some (index, ok)
  | .loaded index ok _ => some (index, ok)
  | .stored index ok => some (index, ok)
  | _ => none

theorem UpdatePhase.pending_task {phase : UpdatePhase} {index : Nat} (pending : phase.pending = some index) :
    phase.task = some index := by
  cases phase <;> first | exact pending | cases pending

structure UpdateInvariant (tasks : List UpdateTask) (outcome : TaskGroup → Bool) (current : UpdateRun) : Prop where
  ledger : Ledger tasks current.state current.starts
  holders : Holders tasks current
  stored : ∀ index ∈ current.stores, index ∈ current.starts
  opened : ∀ index ∈ current.starts, index ∈ current.stores ∨
    ∃ worker, (current.workers worker).pending = some index
  fresh : ∀ worker index, (current.workers worker).pending = some index → index ∉ current.stores
  honest : ∀ worker index ok, (current.workers worker).result = some (index, ok) → ok = outcomeAt tasks outcome index
  exited : ∀ worker, current.workers worker = .exited →
    (∀ other, current.holds other = none) ∧ ∀ index < tasks.length, index ∈ current.starts
  waiting : ∀ worker, current.workers worker = .waiting →
    ∃ other, (current.holds other).isSome ∨ current.workers other = .notifying

theorem updateInvariant_initial (tasks : List UpdateTask) (outcome : TaskGroup → Bool) (workerCount : Nat) :
    UpdateInvariant tasks outcome (initialUpdate tasks workerCount) where
  ledger := by
    constructor <;> simp [initialUpdate]
  holders := by
    constructor <;> simp [initialUpdate, UpdateRun.holds, UpdateRun.holders, UpdatePhase.task]
  stored := by simp [initialUpdate]
  opened := by simp [initialUpdate]
  fresh := by simp [initialUpdate]
  honest := by simp [initialUpdate, UpdatePhase.result]
  exited := by simp [initialUpdate]
  waiting := by simp [initialUpdate]

section Preserved

variable {width : Nat} {tasks : List UpdateTask} {outcome : TaskGroup → Bool} {current next : UpdateRun}
  {worker index : Nat} {ok : Bool} {queue : List Nat}

theorem UpdateInvariant.nobody (valid : UpdateInvariant tasks outcome current)
    (resting : current.state.runningWorkers = 0) (other : Nat) : current.holds other = none := by
  have empty : current.holders = ∅ := Finset.card_eq_zero.mp (valid.holders.running.symm.trans resting)
  cases held : current.holds other with
  | none => rfl
  | some index =>
      have member := valid.holders.mem_holders held
      rw [empty] at member
      cases member

/-- With nobody working no system is busy, so a scan without a find saw only started tasks. -/
theorem UpdateInvariant.all_started (valid : UpdateInvariant tasks outcome current)
    (resting : current.state.runningWorkers = 0)
    (scanned : Scanned current.state.started (busyAt tasks current.state) current.state.readyIndices
      current.state.readyIndices (none, queue)) : ∀ index < tasks.length, index ∈ current.starts := by
  intro index bound
  by_contra fresh
  have busy := scanned.exhausted rfl index (valid.ledger.queued index bound fresh)
    (valid.ledger.not_started.2 fresh)
  obtain ⟨other, task, held, -⟩ := (valid.holders.busy _).mp (of_decide_eq_true busy)
  rw [valid.nobody resting other] at held
  cases held

/-- Somebody holds a task as long as the count is not zero. -/
theorem UpdateInvariant.somebody (valid : UpdateInvariant tasks outcome current)
    (working : current.state.runningWorkers ≠ 0) : ∃ other, (current.holds other).isSome := by
  rw [valid.holders.running] at working
  obtain ⟨other, member⟩ := Finset.card_ne_zero.mp working
  exact ⟨other, (Finset.mem_filter.mp member).2⟩

/-- Waiting and leaving change nothing but the queue. -/
theorem UpdateInvariant.rest (valid : UpdateInvariant tasks outcome current) {phase : UpdatePhase}
    (bound : worker < current.workerCount) (before : current.workers worker = .picking)
    (scanned : Scanned current.state.started (busyAt tasks current.state) current.state.readyIndices
      current.state.readyIndices (none, queue))
    (ending : phase = .exited ∧ current.state.runningWorkers = 0 ∨
      phase = .waiting ∧ current.state.runningWorkers ≠ 0) :
    UpdateInvariant tasks outcome
      ({ current with state := { current.state with readyIndices := queue } }.setPhase worker phase) := by
  have none : phase.task = none ∧ phase.pending = none ∧ phase.result = none := by
    rcases ending with ⟨rfl, -⟩ | ⟨rfl, -⟩ <;> exact ⟨rfl, rfl, rfl⟩
  have held : ∀ other, ({ current with
      state := { current.state with readyIndices := queue } }.setPhase worker phase).holds other =
      current.holds other := by
    intro other
    by_cases here : other = worker
    · rw [here, setPhase_holds_self, UpdateRun.holds, before, none.1]
      rfl
    · exact setPhase_holds_ne here
  refine ⟨valid.ledger.requeue scanned, valid.holders.same rfl rfl rfl rfl held ?_, valid.stored, ?_, ?_, ?_, ?_, ?_⟩
  · intro other outside
    rw [setPhase_ne (Nat.ne_of_gt (Nat.lt_of_lt_of_le bound outside))]
    exact valid.holders.inside other outside
  · intro index started
    refine (valid.opened index started).imp_right ?_
    rintro ⟨other, pending⟩
    refine ⟨other, ?_⟩
    rwa [setPhase_ne]
    rintro rfl
    rw [before] at pending
    cases pending
  · intro other index pending
    by_cases here : other = worker
    · rw [here, setPhase_self, none.2.1] at pending
      cases pending
    · rw [setPhase_ne here] at pending
      exact valid.fresh other index pending
  · intro other index ok result
    by_cases here : other = worker
    · rw [here, setPhase_self, none.2.2] at result
      cases result
    · rw [setPhase_ne here] at result
      exact valid.honest other index ok result
  · intro other left
    by_cases here : other = worker
    · rw [here, setPhase_self] at left
      rcases ending with ⟨-, resting⟩ | ⟨rfl, -⟩
      · exact ⟨fun other => (held other).trans (valid.nobody resting other), valid.all_started resting scanned⟩
      · cases left
    · rw [setPhase_ne here] at left
      exact ⟨fun task => (held task).trans ((valid.exited other left).1 task), (valid.exited other left).2⟩
  · intro other asleep
    have somebody : ∃ other, (current.holds other).isSome ∨ current.workers other = .notifying := by
      by_cases here : other = worker
      · rw [here, setPhase_self] at asleep
        rcases ending with ⟨rfl, -⟩ | ⟨-, working⟩
        · cases asleep
        · obtain ⟨busy, task⟩ := valid.somebody working
          exact ⟨busy, Or.inl task⟩
      · rw [setPhase_ne here] at asleep
        exact valid.waiting other asleep
    obtain ⟨busy, task | notifying⟩ := somebody
    · exact ⟨busy, Or.inl (by rw [held]; exact task)⟩
    · refine ⟨busy, Or.inr ?_⟩
      rwa [setPhase_ne]
      rintro rfl
      rw [before] at notifying
      cases notifying

theorem UpdateInvariant.start (valid : UpdateInvariant tasks outcome current) {candidate : Nat}
    (bound : worker < current.workerCount) (before : current.workers worker = .picking)
    (scanned : Scanned current.state.started (busyAt tasks current.state) current.state.readyIndices
      current.state.readyIndices (some candidate, queue)) :
    UpdateInvariant tasks outcome ({ current with
      state := startTask tasks current.state candidate queue
      starts := current.starts ++ [candidate] }.setPhase worker (.executing candidate)) := by
  obtain ⟨member, unstarted, idle⟩ := scanned.found candidate rfl
  have new : candidate ∉ current.starts := valid.ledger.not_started.1 unstarted
  refine ⟨valid.ledger.start scanned,
    valid.holders.start bound before (of_decide_eq_false idle) rfl rfl,
    fun index stored => List.mem_append_left _ (valid.stored index stored), ?_, ?_, ?_, ?_, ?_⟩
  · intro index started
    rcases List.mem_append.mp started with earlier | last
    · refine (valid.opened index earlier).imp_right ?_
      rintro ⟨other, pending⟩
      refine ⟨other, ?_⟩
      rwa [setPhase_ne]
      rintro rfl
      rw [before] at pending
      cases pending
    · rw [List.mem_singleton.mp last]
      exact Or.inr ⟨worker, by rw [setPhase_self]; rfl⟩
  · intro other index pending
    by_cases here : other = worker
    · rw [here, setPhase_self] at pending
      obtain rfl := Option.some.inj pending
      exact fun stored => new (valid.stored _ stored)
    · rw [setPhase_ne here] at pending
      exact valid.fresh other index pending
  · intro other index ok result
    by_cases here : other = worker
    · rw [here, setPhase_self] at result
      cases result
    · rw [setPhase_ne here] at result
      exact valid.honest other index ok result
  · intro other left
    -- nobody left while a task was still to be started
    by_cases here : other = worker
    · rw [here, setPhase_self] at left
      cases left
    · rw [setPhase_ne here] at left
      exact absurd ((valid.exited other left).2 candidate (valid.ledger.queue candidate member)) new
  · exact fun other _ => ⟨worker, Or.inl (by rw [setPhase_holds_self]; rfl)⟩

/-- A worker goes on with its task, and may store its result on the way. -/
theorem UpdateInvariant.advance (valid : UpdateInvariant tasks outcome current) {phase : UpdatePhase}
    {results : Nat → Bool} {stores : List Nat} (pending : (current.workers worker).pending = some index)
    (task : phase.task = some index)
    (result : ∀ other ok, phase.result = some (other, ok) → ok = outcomeAt tasks outcome other)
    (ending : stores = current.stores ∧ phase.pending = some index ∨
      stores = current.stores ++ [index] ∧ phase.pending = none) :
    UpdateInvariant tasks outcome
      ({ current with results := results, stores := stores }.setPhase worker phase) := by
  have held : current.holds worker = some index := UpdatePhase.pending_task pending
  have holds : ∀ other, ({ current with
      results := results, stores := stores }.setPhase worker phase).holds other = current.holds other := by
    intro other
    by_cases here : other = worker
    · rw [here, setPhase_holds_self, held, task]
    · exact setPhase_holds_ne here
  have bound := valid.holders.holds_lt held
  have earlier : ∀ task ∈ current.stores, task ∈ stores := by
    rcases ending with ⟨rfl, -⟩ | ⟨rfl, -⟩
    · exact fun task member => member
    · exact fun task member => List.mem_append_left _ member
  refine ⟨valid.ledger, valid.holders.same rfl rfl rfl rfl holds ?_, ?_, ?_, ?_, ?_, ?_, ?_⟩
  · intro other outside
    rw [setPhase_ne (Nat.ne_of_gt (Nat.lt_of_lt_of_le bound outside))]
    exact valid.holders.inside other outside
  · intro other stored
    rcases ending with ⟨rfl, -⟩ | ⟨rfl, -⟩
    · exact valid.stored other stored
    · rcases List.mem_append.mp stored with before | last
      · exact valid.stored other before
      · rw [List.mem_singleton.mp last]
        exact valid.holders.held worker index held
  · intro other started
    rcases valid.opened other started with stored | ⟨holder, open'⟩
    · exact Or.inl (earlier other stored)
    · by_cases here : holder = worker
      · rw [here, pending] at open'
        obtain rfl := Option.some.inj open'
        rcases ending with ⟨-, still⟩ | ⟨rfl, -⟩
        · exact Or.inr ⟨worker, by rw [setPhase_self, still]⟩
        · exact Or.inl (List.mem_append_right _ (List.mem_singleton.mpr rfl))
      · exact Or.inr ⟨holder, by rw [setPhase_ne here]; exact open'⟩
  · intro other task open'
    by_cases here : other = worker
    · rw [here, setPhase_self] at open'
      rcases ending with ⟨rfl, still⟩ | ⟨-, none⟩
      · rw [still] at open'
        exact valid.fresh worker task (pending.trans open')
      · rw [none] at open'
        cases open'
    · rw [setPhase_ne here] at open'
      have unstored := valid.fresh other task open'
      rcases ending with ⟨rfl, -⟩ | ⟨rfl, -⟩
      · exact unstored
      · intro stored
        rcases List.mem_append.mp stored with before | last
        · exact unstored before
        · rw [List.mem_singleton.mp last] at open'
          exact here (valid.holders.alone other worker index index (UpdatePhase.pending_task open') held rfl)
  · intro other task ok own
    by_cases here : other = worker
    · rw [here, setPhase_self] at own
      exact result task ok own
    · rw [setPhase_ne here] at own
      exact valid.honest other task ok own
  · intro other left
    by_cases here : other = worker
    · rw [here, setPhase_self] at left
      rw [left] at task
      cases task
    · rw [setPhase_ne here] at left
      have none := (valid.exited other left).1 worker
      rw [held] at none
      cases none
  · exact fun other _ => ⟨worker, Or.inl (by rw [holds, held]; rfl)⟩

theorem UpdateInvariant.complete (valid : UpdateInvariant tasks outcome current)
    (before : current.workers worker = .stored index ok) :
    UpdateInvariant tasks outcome ({ current with
      state := completeTask tasks false current.state index ok }.setPhase worker .notifying) := by
  have held : current.holds worker = some index := by rw [UpdateRun.holds, before]; rfl
  rw [completeTask_eq]
  refine ⟨{ valid.ledger with }, valid.holders.release held rfl rfl rfl, valid.stored, ?_, ?_, ?_, ?_, ?_⟩
  · intro other started
    refine (valid.opened other started).imp_right ?_
    rintro ⟨holder, pending⟩
    refine ⟨holder, ?_⟩
    rwa [setPhase_ne]
    rintro rfl
    rw [before] at pending
    cases pending
  · intro other task pending
    by_cases here : other = worker
    · rw [here, setPhase_self] at pending
      cases pending
    · rw [setPhase_ne here] at pending
      exact valid.fresh other task pending
  · intro other task ok result
    by_cases here : other = worker
    · rw [here, setPhase_self] at result
      cases result
    · rw [setPhase_ne here] at result
      exact valid.honest other task ok result
  · intro other left
    by_cases here : other = worker
    · rw [here, setPhase_self] at left
      cases left
    · rw [setPhase_ne here] at left
      have none := (valid.exited other left).1 worker
      rw [held] at none
      cases none
  · exact fun other _ => ⟨worker, Or.inr setPhase_self⟩

/-- Waking up, and notifying the others. -/
theorem UpdateInvariant.resume (valid : UpdateInvariant tasks outcome current) {workers : Nat → UpdatePhase}
    (moved : ∀ other, workers other = current.workers other ∨
      workers other = .picking ∧ (current.workers other).task = none ∧ current.workers other ≠ .exited)
    (asleep : ∀ other, workers other = .waiting → current.workers other = .waiting ∧
      ∃ busy, (current.holds busy).isSome ∨ current.workers busy = .notifying ∧ workers busy = .notifying) :
    UpdateInvariant tasks outcome { current with workers := workers } := by
  have holds : ∀ other, UpdateRun.holds { current with workers := workers } other = current.holds other := by
    intro other
    rcases moved other with same | ⟨picking, none, -⟩
    · exact congrArg UpdatePhase.task same
    · exact (congrArg UpdatePhase.task picking).trans none.symm
  have pendings : ∀ other, (workers other).pending = (current.workers other).pending := by
    intro other
    rcases moved other with same | ⟨picking, none, -⟩
    · rw [same]
    · rw [picking]
      cases pending : (current.workers other).pending with
      | none => rfl
      | some index => exact absurd (none.symm.trans (UpdatePhase.pending_task pending)) (by simp)
  refine ⟨valid.ledger, valid.holders.same rfl rfl rfl rfl holds ?_, valid.stored, ?_, ?_, ?_, ?_, ?_⟩
  · intro other outside
    rcases moved other with same | ⟨picking, -, -⟩
    · exact same.trans (valid.holders.inside other outside)
    · exact picking
  · simpa only [pendings] using valid.opened
  · simpa only [pendings] using valid.fresh
  · intro other task ok result
    rcases moved other with same | ⟨picking, -, -⟩
    · exact valid.honest other task ok (by rw [← same]; exact result)
    · rw [show ({ current with workers := workers } : UpdateRun).workers other = .picking from picking] at result
      cases result
  · intro other left
    have before : current.workers other = .exited := by
      rcases moved other with same | ⟨picking, -, -⟩
      · exact same.symm.trans left
      · exact absurd (picking.symm.trans left) (by simp)
    exact ⟨fun task => (holds task).trans ((valid.exited other before).1 task), (valid.exited other before).2⟩
  · intro other waiting
    obtain ⟨-, busy, task | ⟨-, notifying⟩⟩ := asleep other waiting
    · exact ⟨busy, Or.inl (by rw [holds]; exact task)⟩
    · exact ⟨busy, Or.inr notifying⟩

theorem UpdatePhase.woken_eq (phase : UpdatePhase) :
    phase.woken = phase ∨ phase.woken = .picking ∧ phase = .waiting := by
  cases phase <;> simp [UpdatePhase.woken]

theorem UpdateInvariant.move {event : UpdateEvent} (valid : UpdateInvariant tasks outcome current)
    (move : UpdateMove width tasks outcome current event next) : UpdateInvariant tasks outcome next := by
  cases move with
  | leave bound before resting scanned => exact valid.rest bound before scanned (Or.inl ⟨rfl, resting⟩)
  | wait bound before working scanned => exact valid.rest bound before scanned (Or.inr ⟨rfl, working⟩)
  | start bound before scanned => exact valid.start bound before scanned
  | @execute worker index before =>
      refine valid.advance (by rw [before]; rfl) rfl ?_ (Or.inl ⟨rfl, rfl⟩)
      intro other ok own
      cases own
      rfl
  | @load worker index ok before =>
      refine valid.advance (by rw [before]; rfl) rfl ?_ (Or.inl ⟨rfl, rfl⟩)
      intro other result own
      cases own
      exact valid.honest worker index ok (by rw [before]; rfl)
  | @store worker index ok word before =>
      refine valid.advance (by rw [before]; rfl) rfl ?_ (Or.inr ⟨rfl, rfl⟩)
      intro other result own
      cases own
      exact valid.honest worker index ok (by rw [before]; rfl)
  | complete before => exact valid.complete before
  | @notify worker before =>
      refine valid.resume (fun other => ?_) fun other waiting => ?_
      · by_cases here : other = worker
        · subst other
          refine Or.inr ⟨?_, by rw [before]; rfl, by rw [before]; simp⟩
          rw [Function.update_self]
          rfl
        · rw [Function.update_of_ne here]
          refine (UpdatePhase.woken_eq _).imp_right ?_
          rintro ⟨picking, asleep⟩
          exact ⟨picking, by rw [asleep]; rfl, by rw [asleep]; simp⟩
      · exfalso
        cases phase : Function.update current.workers worker .picking other <;> simp [phase, UpdatePhase.woken] at waiting
  | @wake worker before =>
      refine valid.resume (fun other => ?_) fun other waiting => ?_
      · by_cases here : other = worker
        · subst other
          exact Or.inr ⟨Function.update_self .., by rw [before]; rfl, by rw [before]; simp⟩
        · exact Or.inl (Function.update_of_ne here ..)
      · by_cases here : other = worker
        · rw [here, Function.update_self] at waiting
          cases waiting
        · rw [Function.update_of_ne here] at waiting
          refine ⟨waiting, ?_⟩
          obtain ⟨busy, task | notifying⟩ := valid.waiting other waiting
          · exact ⟨busy, Or.inl task⟩
          · refine ⟨busy, Or.inr ⟨notifying, ?_⟩⟩
            rw [Function.update_of_ne]
            · exact notifying
            · rintro rfl
              rw [before] at notifying
              cases notifying

/-- Every step of every worker preserves the invariant. -/
theorem UpdateInvariant.step {event : UpdateEvent} (valid : UpdateInvariant tasks outcome current)
    (accepted : updateStep width tasks outcome false current event = some next) :
    UpdateInvariant tasks outcome next :=
  valid.move (updateStep_move valid.ledger.launching accepted)

theorem updateWithWorkers_invariant {workerCount : Nat} {events : List UpdateEvent} {final : UpdateRun}
    (run : updateWithWorkers width tasks outcome false workerCount events = some final) :
    UpdateInvariant tasks outcome final :=
  runEvents_invariant (fun _ _ _ valid accepted => UpdateInvariant.step valid accepted)
    (updateInvariant_initial tasks outcome workerCount) run

end Preserved

end ReqPack.Executor
