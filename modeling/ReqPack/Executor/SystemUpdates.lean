import Mathlib.Data.Finset.Basic
import ReqPack.Data.Machine
import ReqPack.Data.PackedBits
import ReqPack.Planner.Dependencies
import ReqPack.Scheduler.TaskGroups

/-! # System updates

`Executer::updateSystems`, one after the other and with several workers.  The
results are bits of a `std::vector<bool>`: a worker stores its bit outside the
lock, by reading the word that holds it and writing the word back.
-/

namespace ReqPack.Executor

open ReqPack.Data ReqPack.Core ReqPack.Planner ReqPack.Scheduler

/-- What the executor asks the registry, the gateway and the plugins; every answer
depends on the question alone. -/
structure UpdateEnv where
  resolveRequest : Request → Option Request
  isGatewaySystem : String → Bool
  getPlugin : String → Option String
  loadPlugin : String → Bool
  dispatchTaskGroupToSecurityGateway : TaskGroup → Bool
  dispatchTaskGroupToPlugin : TaskGroup → Bool
  dryRun : Bool := false
  stopOnFirstFailure : Bool := false
  resolvedExecutionJobs : Nat := 1

structure UpdateTask where
  requestIndex : Nat := 0
  taskGroup : TaskGroup := {}
deriving Repr, DecidableEq

section Tasks

variable (env : UpdateEnv)

/-- The task of one request; requests for packages or local targets and requests
that cannot be resolved have none. -/
def updateTask (entry : Request × Nat) : Option UpdateTask :=
  if entry.1.system.isEmpty || entry.1.usesLocalTarget || !entry.1.packages.isEmpty then none
  else
    (env.resolveRequest entry.1).map fun resolved =>
      { requestIndex := entry.2
        taskGroup := { action := .update, system := resolved.system, flags := resolved.flags } }

/-- The loop body of `TaskGraphBuilder::preload`. -/
def preloadTaskGroup (group : TaskGroup) : TaskGroup :=
  let group := { group with plugin := none, pluginLoadFailed := false }
  if env.isGatewaySystem group.system then group
  else if (env.getPlugin group.system).isNone || !env.loadPlugin group.system then
    { group with pluginLoadFailed := true }
  else { group with plugin := env.getPlugin group.system }

def updateTasks (requests : List Request) : List UpdateTask :=
  (requests.zipIdx.filterMap (updateTask env)).map fun task =>
    { task with taskGroup := preloadTaskGroup env task.taskGroup }

def executeUpdate (group : TaskGroup) : Bool :=
  if env.isGatewaySystem group.system then env.dispatchTaskGroupToSecurityGateway group
  else if group.pluginLoadFailed then false
  else if env.dryRun then true
  else env.dispatchTaskGroupToPlugin group

end Tasks

section Sequential

variable (width : Nat) (outcome : TaskGroup → Bool) (stopOnFirstFailure : Bool)

/-- The sequential path. -/
def updateInOrder : List UpdateTask → (Nat → Bool) → (Nat → Bool)
  | [], results => results
  | task :: tasks, results =>
      let ok := outcome task.taskGroup
      let results := storeBit width results task.requestIndex ok
      if !ok && stopOnFirstFailure then results else updateInOrder tasks results

end Sequential

/-! ## The workers -/

/-- Vectors indexed by task are functions from the index. -/
structure ParallelUpdateState where
  readyIndices : List Nat
  busySystems : Finset String
  started : Nat → Bool
  completed : Nat → Bool
  failed : Nat → Bool
  stopLaunching : Bool
  runningWorkers : Nat

inductive UpdatePhase where
  /-- before the lock of the pick-step -/
  | picking
  /-- inside `condition.wait` -/
  | waiting
  /-- inside `executeUpdate` -/
  | executing (index : Nat)
  /-- before the word of the result is read -/
  | executed (index : Nat) (ok : Bool)
  /-- before the word is written back -/
  | loaded (index : Nat) (ok : Bool) (word : Nat → Bool)
  /-- before the lock of the completion-step -/
  | stored (index : Nat) (ok : Bool)
  /-- before `condition.notify_all` -/
  | notifying
  | exited

/-- The shared state, the workers, the result bits, and the history of which tasks
were started and which results were stored. -/
structure UpdateRun where
  state : ParallelUpdateState
  workerCount : Nat
  workers : Nat → UpdatePhase
  results : Nat → Bool
  starts : List Nat
  stores : List Nat

inductive UpdateEvent where
  | pick (worker : Nat)
  | execute (worker : Nat)
  | load (worker : Nat)
  | store (worker : Nat)
  | complete (worker : Nat)
  | notify (worker : Nat)
  | wake (worker : Nat)
deriving Repr, DecidableEq

section Steps

variable (width : Nat) (tasks : List UpdateTask) (outcome : TaskGroup → Bool) (stopOnFirstFailure : Bool)

def systemAt (index : Nat) : String := (tasks.getD index {}).taskGroup.system

def slotAt (index : Nat) : Nat := (tasks.getD index {}).requestIndex

def outcomeAt (index : Nat) : Bool := outcome (tasks.getD index {}).taskGroup

/-- The scan over the ready queue: started candidates are dropped, candidates of a
busy system go to the back, the first other one is taken. -/
def scanTasks (state : ParallelUpdateState) : Nat → List Nat → Option Nat × List Nat
  | 0, queue => (none, queue)
  | _ + 1, [] => (none, [])
  | attempts + 1, candidate :: queue =>
      if state.started candidate then scanTasks state attempts queue
      else if systemAt tasks candidate ∈ state.busySystems then
        scanTasks state attempts (queue ++ [candidate])
      else (some candidate, queue)

inductive UpdatePick where
  | leave
  | wait
  | start (index : Nat)
deriving Repr, DecidableEq

/-- One pass of the inner loop of a worker, with the mutex held. -/
def pickTask (state : ParallelUpdateState) : UpdatePick × ParallelUpdateState :=
  if state.stopLaunching || (state.readyIndices.isEmpty && state.runningWorkers == 0) then
    (.leave, state)
  else
    let scanned := scanTasks tasks state state.readyIndices.length state.readyIndices
    let state := { state with readyIndices := scanned.2 }
    match scanned.1 with
    | some candidate =>
        (.start candidate,
          { state with
            started := Function.update state.started candidate true
            busySystems := insert (systemAt tasks candidate) state.busySystems
            runningWorkers := state.runningWorkers + 1 })
    | none => if state.runningWorkers == 0 then (.leave, state) else (.wait, state)

/-- The completion-step of a worker, with the mutex held. -/
def completeTask (state : ParallelUpdateState) (index : Nat) (ok : Bool) : ParallelUpdateState :=
  let state :=
    { state with
      completed := Function.update state.completed index true
      failed := Function.update state.failed index (!ok)
      busySystems := state.busySystems.erase (systemAt tasks index) }
  let state := if !ok && stopOnFirstFailure then { state with stopLaunching := true } else state
  if state.runningWorkers > 0 then { state with runningWorkers := state.runningWorkers - 1 } else state

def UpdatePhase.woken : UpdatePhase → UpdatePhase
  | .waiting => .picking
  | phase => phase

/-- One worker moves on. -/
def UpdateRun.setPhase (current : UpdateRun) (worker : Nat) (phase : UpdatePhase) : UpdateRun :=
  { current with workers := Function.update current.workers worker phase }

/-- One step of one worker; an event the worker is not ready for is refused. -/
def updateStep (current : UpdateRun) : UpdateEvent → Option UpdateRun
  | .pick worker =>
      match current.workers worker with
      | .picking =>
          if worker < current.workerCount then
            let picked := pickTask tasks current.state
            match picked.1 with
            | .leave => some ({ current with state := picked.2 }.setPhase worker .exited)
            | .wait => some ({ current with state := picked.2 }.setPhase worker .waiting)
            | .start index => some ({ current with
                state := picked.2
                starts := current.starts ++ [index] }.setPhase worker (.executing index))
          else none
      | _ => none
  | .execute worker =>
      match current.workers worker with
      | .executing index => some (current.setPhase worker (.executed index (outcomeAt tasks outcome index)))
      | _ => none
  | .load worker =>
      match current.workers worker with
      | .executed index ok =>
          some (current.setPhase worker (.loaded index ok (readWord width current.results (slotAt tasks index))))
      | _ => none
  | .store worker =>
      match current.workers worker with
      | .loaded index ok word => some ({ current with
          results := writeWord width current.results (slotAt tasks index)
            (setInWord width word (slotAt tasks index) ok)
          stores := current.stores ++ [index] }.setPhase worker (.stored index ok))
      | _ => none
  | .complete worker =>
      match current.workers worker with
      | .stored index ok => some ({ current with
          state := completeTask tasks stopOnFirstFailure current.state index ok }.setPhase worker .notifying)
      | _ => none
  | .notify worker =>
      match current.workers worker with
      | .notifying => some { current with
          workers := fun other => (Function.update current.workers worker .picking other).woken }
      | _ => none
  | .wake worker =>
      match current.workers worker with
      | .waiting => some (current.setPhase worker .picking)
      | _ => none

/-- The state in which the workers are created. -/
def initialUpdate (workerCount : Nat) : UpdateRun where
  state :=
    { readyIndices := List.range tasks.length
      busySystems := ∅
      started := fun _ => false
      completed := fun _ => false
      failed := fun _ => false
      stopLaunching := false
      runningWorkers := 0 }
  workerCount := workerCount
  workers := fun _ => .picking
  results := fun _ => false
  starts := []
  stores := []

/-- The parallel path, for one interleaving. -/
def updateWithWorkers (workerCount : Nat) (events : List UpdateEvent) : Option UpdateRun :=
  runEvents (updateStep width tasks outcome stopOnFirstFailure) (initialUpdate tasks workerCount) events

end Steps

/-- Every worker has left its loop. -/
def UpdateRun.Terminated (final : UpdateRun) : Prop :=
  ∀ worker < final.workerCount, final.workers worker = .exited

/-- The task a worker is responsible for. -/
def UpdatePhase.task : UpdatePhase → Option Nat
  | .executing index => some index
  | .executed index _ => some index
  | .loaded index _ _ => some index
  | .stored index _ => some index
  | _ => none

section Whole

variable (width : Nat) (env : UpdateEnv)

def runsInParallel (requests : List Request) : Bool :=
  !(env.resolvedExecutionJobs ≤ 1 || (updateTasks env requests).length ≤ 1)

def updateWorkerCount (requests : List Request) : Nat :=
  min env.resolvedExecutionJobs (updateTasks env requests).length

/-- The vector that the bits stand for. -/
def resultVector (requests : List Request) (results : Nat → Bool) : List Bool :=
  (List.range requests.length).map results

/-- The result of the sequential path. -/
def sequentialResults (requests : List Request) : List Bool :=
  resultVector requests
    (updateInOrder width (executeUpdate env) env.stopOnFirstFailure (updateTasks env requests) fun _ => false)

/-- `updateSystems` on the parallel path, as far as the events of an interleaving go. -/
def updateSystems (requests : List Request) (events : List UpdateEvent) : Option UpdateRun :=
  updateWithWorkers width (updateTasks env requests) (executeUpdate env) env.stopOnFirstFailure
    (updateWorkerCount env requests) events

end Whole

end ReqPack.Executor
