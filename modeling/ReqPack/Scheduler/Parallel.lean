import Mathlib.Data.Finset.Basic
import ReqPack.Data.Machine
import ReqPack.Scheduler.Plans

/-! # The worker loop of the scheduler

The parallel path of `ParallelTaskScheduler::run`.  A worker holds the mutex for a whole pick-step and for a whole completion-step, so each of
the two is one step of the machine; running the group, notifying and waking up
are steps of their own.  The order of the events is the interleaving.
-/

namespace ReqPack.Scheduler

open ReqPack.Data ReqPack.Core

universe u

/-- Vectors indexed by group are functions from the index. -/
structure ParallelExecutionState where
  readyIndices : List Nat
  busySystems : Finset String
  pendingDependencies : Nat → Nat
  started : Nat → Bool
  completed : Nat → Bool
  failed : Nat → Bool
  stopLaunching : Bool
  runningWorkers : Nat

inductive WorkerPhase where
  /-- before the lock of the pick-step -/
  | picking
  /-- inside `condition.wait` -/
  | waiting
  /-- inside `executeTaskGroup` -/
  | executing (index : Nat)
  /-- before the lock of the completion-step -/
  | finished (index : Nat) (records : List TransactionRecord)
  /-- before `condition.notify_all` -/
  | notifying
  | exited
deriving Repr, DecidableEq

/-- What an outside observer sees of a run. -/
inductive Observation where
  | started (index : Nat)
  | completed (index : Nat) (records : List TransactionRecord)
deriving Repr, DecidableEq

/-- The whole scheduler: shared state, workers, result slots, the outside world
that running a group changes, and the history of what was started and completed. -/
structure SchedulerState (World : Type u) where
  state : ParallelExecutionState
  workerCount : Nat
  workers : Nat → WorkerPhase
  resultSlots : Nat → List TransactionRecord
  world : World
  log : List Observation

inductive SchedulerEvent where
  | pick (worker : Nat)
  | execute (worker : Nat)
  | complete (worker : Nat)
  | notify (worker : Nat)
  | wake (worker : Nat)
deriving Repr, DecidableEq

section Steps

variable (plans : List TaskGroupPlan)

/-- The condition under which the scan drops a candidate from the queue. -/
def isStale (state : ParallelExecutionState) (candidate : Nat) : Bool :=
  state.started candidate || state.failed candidate || state.pendingDependencies candidate != 0

/-- The scan over the ready queue: stale candidates are dropped, candidates of a
busy system go to the back, the first other one is taken. -/
def scanReady (state : ParallelExecutionState) : Nat → List Nat → Option Nat × List Nat
  | 0, queue => (none, queue)
  | _ + 1, [] => (none, [])
  | attempts + 1, candidate :: queue =>
      if isStale state candidate then scanReady state attempts queue
      else if systemOf plans candidate ∈ state.busySystems then
        scanReady state attempts (queue ++ [candidate])
      else (some candidate, queue)

inductive PickOutcome where
  | leave
  | wait
  | start (index : Nat)
deriving Repr, DecidableEq

/-- One pass of the inner loop of a worker, with the mutex held. -/
def pick (state : ParallelExecutionState) : PickOutcome × ParallelExecutionState :=
  if state.stopLaunching || (state.readyIndices.isEmpty && state.runningWorkers == 0) then
    (.leave, state)
  else
    let scanned := scanReady plans state state.readyIndices.length state.readyIndices
    let state := { state with readyIndices := scanned.2 }
    match scanned.1 with
    | some candidate =>
        (.start candidate,
          { state with
            started := Function.update state.started candidate true
            busySystems := insert (systemOf plans candidate) state.busySystems
            runningWorkers := state.runningWorkers + 1 })
    | none => if state.runningWorkers == 0 then (.leave, state) else (.wait, state)

/-- The loop body of the completion-step for one successor. -/
def releaseSuccessor (failed : Bool) (state : ParallelExecutionState) (successor : Nat) :
    ParallelExecutionState :=
  let state :=
    if state.pendingDependencies successor > 0 then
      { state with
        pendingDependencies := Function.update state.pendingDependencies successor
          (state.pendingDependencies successor - 1) }
    else state
  let state :=
    if failed then { state with failed := Function.update state.failed successor true } else state
  if state.pendingDependencies successor == 0 && !state.started successor &&
      !state.completed successor && !state.failed successor then
    { state with readyIndices := state.readyIndices ++ [successor] }
  else state

/-- The completion-step of a worker, with the mutex held. -/
def complete (stopOnFirstFailure : Bool) (state : ParallelExecutionState) (index : Nat)
    (failed : Bool) : ParallelExecutionState :=
  let state :=
    { state with
      completed := Function.update state.completed index true
      failed := Function.update state.failed index failed
      busySystems := state.busySystems.erase (systemOf plans index) }
  let state := (successorsOf plans index).foldl (releaseSuccessor failed) state
  let state := if failed && stopOnFirstFailure then { state with stopLaunching := true } else state
  if state.runningWorkers > 0 then { state with runningWorkers := state.runningWorkers - 1 } else state

def wakeAll (workers : Nat → WorkerPhase) : Nat → WorkerPhase := fun worker =>
  if workers worker = .waiting then .picking else workers worker

variable {World : Type u} (stopOnFirstFailure : Bool)
  (executeTaskGroup : TaskGroup → World → List TransactionRecord × World)

def taskGroupOf (index : Nat) : TaskGroup := (plans.getD index { taskGroup := {} }).taskGroup

/-- One step of one worker; an event the worker is not ready for is refused. -/
def schedulerStep (current : SchedulerState World) : SchedulerEvent → Option (SchedulerState World)
  | .pick worker =>
      if worker < current.workerCount ∧ current.workers worker = .picking then
        let picked := pick plans current.state
        match picked.1 with
        | .leave => some { current with
            state := picked.2, workers := Function.update current.workers worker .exited }
        | .wait => some { current with
            state := picked.2, workers := Function.update current.workers worker .waiting }
        | .start index => some { current with
            state := picked.2
            workers := Function.update current.workers worker (.executing index)
            log := current.log ++ [.started index] }
      else none
  | .execute worker =>
      match current.workers worker with
      | .executing index =>
          let result := executeTaskGroup (taskGroupOf plans index) current.world
          some { current with
            world := result.2
            workers := Function.update current.workers worker (.finished index result.1) }
      | _ => none
  | .complete worker =>
      match current.workers worker with
      | .finished index records => some { current with
          resultSlots := Function.update current.resultSlots index records
          state := complete plans stopOnFirstFailure current.state index (hasFailure records)
          workers := Function.update current.workers worker .notifying
          log := current.log ++ [.completed index records] }
      | _ => none
  | .notify worker =>
      if current.workers worker = .notifying then
        some { current with workers := wakeAll (Function.update current.workers worker .picking) }
      else none
  | .wake worker =>
      if current.workers worker = .waiting then
        some { current with workers := Function.update current.workers worker .picking }
      else none

/-- The state in which the workers are created. -/
def initialScheduler (workerCount : Nat) (world : World) : SchedulerState World where
  state :=
    { readyIndices := (List.range plans.length).filter fun index => pendingOf plans index == 0
      busySystems := ∅
      pendingDependencies := pendingOf plans
      started := fun _ => false
      completed := fun _ => false
      failed := fun _ => false
      stopLaunching := false
      runningWorkers := 0 }
  workerCount := workerCount
  workers := fun _ => .picking
  resultSlots := fun _ => []
  world := world
  log := []

/-- A run of the worker loop: the events in the order in which they happen. -/
def runWorkers (workerCount : Nat) (world : World) (events : List SchedulerEvent) :
    Option (SchedulerState World) :=
  runEvents (schedulerStep plans stopOnFirstFailure executeTaskGroup)
    (initialScheduler plans workerCount world) events

/-- All workers have returned, so the join loop ends. -/
def SchedulerState.Terminated (final : SchedulerState World) : Prop :=
  ∀ worker, worker < final.workerCount → final.workers worker = .exited

instance (final : SchedulerState World) : Decidable final.Terminated :=
  inferInstanceAs (Decidable (∀ worker, worker < final.workerCount → final.workers worker = .exited))

/-- The records in slot order. -/
def SchedulerState.records (final : SchedulerState World) (groupCount : Nat) :
    List TransactionRecord :=
  (List.range groupCount).flatMap final.resultSlots

end Steps

end ReqPack.Scheduler
