import Mathlib.Logic.Relation
import ReqPack.Scheduler.WorkerRuns

/-! # Calls into plugins

A worker that runs a group enters the plugin of its system, and from inside the
call the plugin may ask the executor for packages of other systems
(`Executer::ensurePackages`, `installRqpLocal`).  These calls go past the busy systems of
the scheduler.
-/

namespace ReqPack.Scheduler

open ReqPack.Data ReqPack.Core

universe u

/-- The scheduler, and the calls its workers are inside. -/
structure CallState (World : Type u) where
  scheduler : SchedulerState World
  /-- the plugins a worker is inside, the innermost call first -/
  inside : Nat → List String := fun _ => []
  /-- the groups from which a plugin called back, with the system it asked for -/
  callbacks : List (Nat × String) := []

inductive CallEvent where
  | scheduler (event : SchedulerEvent)
  /-- the worker calls the plugin of its group -/
  | enter (worker : Nat)
  /-- the innermost plugin asks for packages of a system, and the plugin of that system is called -/
  | callBack (worker : Nat) (system : String)
  | leave (worker : Nat)
deriving Repr, DecidableEq

section Steps

variable {World : Type u} (plans : List TaskGroupPlan) (stopOnFirstFailure : Bool)
  (executeTaskGroup : TaskGroup → World → List TransactionRecord × World)
  (resolvePluginName : String → String) (isGatewaySystem : String → Bool)

/-- A worker is done with its group only when its calls have returned. -/
def insideCall (current : CallState World) : SchedulerEvent → Bool
  | .execute worker => !(current.inside worker).isEmpty
  | _ => false

/-- One step of a worker inside or outside of its calls.  `getPlugin` returns the same
plugin for all names that resolve to one. -/
def callStep (current : CallState World) : CallEvent → Option (CallState World)
  | .scheduler event =>
      if insideCall current event then none
      else (schedulerStep plans stopOnFirstFailure executeTaskGroup current.scheduler event).map
        fun next => { current with scheduler := next }
  | .enter worker =>
      match current.scheduler.workers worker with
      | .executing index =>
          if current.inside worker = [] ∧ isGatewaySystem (systemOf plans index) = false then
            some { current with
              inside := Function.update current.inside worker
                [resolvePluginName (systemOf plans index)] }
          else none
      | _ => none
  | .callBack worker system =>
      match current.scheduler.workers worker with
      | .executing index =>
          if current.inside worker ≠ [] ∧ system ≠ "" ∧ resolvePluginName system ≠ "" ∧
              isGatewaySystem (resolvePluginName system) = false then
            some { current with
              inside := Function.update current.inside worker
                (resolvePluginName system :: current.inside worker)
              callbacks := current.callbacks ++ [(index, system)] }
          else none
      | _ => none
  | .leave worker =>
      match current.inside worker with
      | [] => none
      | _ :: outer => some { current with inside := Function.update current.inside worker outer }

/-- A run of the workers from the state in which they are created. -/
def runCalls (workerCount : Nat) (world : World) (events : List CallEvent) : Option (CallState World) :=
  runEvents (callStep plans stopOnFirstFailure executeTaskGroup resolvePluginName isGatewaySystem)
    { scheduler := initialScheduler plans workerCount world } events

end Steps

/-- No plugin has two workers inside it. -/
def CallState.Exclusive {World : Type u} (current : CallState World) : Prop :=
  ∀ first second, first ≠ second → ∀ plugin ∈ current.inside first, plugin ∉ current.inside second

/-- The plugins a group gets to: its own and those its calls ask for. -/
def EntersPlugin (plans : List TaskGroupPlan) (resolvePluginName : String → String) (calls : Nat → List String)
    (index : Nat) (plugin : String) : Prop :=
  plugin = resolvePluginName (systemOf plans index) ∨
    ∃ system ∈ calls index, plugin = resolvePluginName system

/-- Two groups of different systems get to no common plugin, unless the one has to wait
for the other. -/
def Separate (plans : List TaskGroupPlan) (resolvePluginName : String → String)
    (calls : Nat → List String) : Prop :=
  ∀ first second, first < plans.length → second < plans.length →
    systemOf plans first ≠ systemOf plans second →
    ¬ Relation.TransGen (fun source target => target ∈ successorsOf plans source) first second →
    ¬ Relation.TransGen (fun source target => target ∈ successorsOf plans source) second first →
    ∀ plugin, EntersPlugin plans resolvePluginName calls first plugin →
      ¬ EntersPlugin plans resolvePluginName calls second plugin

section Invariant

variable {World : Type u} {plans : List TaskGroupPlan} {stopOnFirstFailure : Bool}
  {executeTaskGroup : TaskGroup → World → List TransactionRecord × World}
  {resolvePluginName : String → String} {isGatewaySystem : String → Bool}

/-- A worker stays with its group until the group is executed. -/
theorem schedulerStep_executing {current next : SchedulerState World} {event : SchedulerEvent}
    (accepted : schedulerStep plans stopOnFirstFailure executeTaskGroup current event = some next)
    {worker index : Nat} (executing : current.workers worker = .executing index) :
    next.workers worker = .executing index ∨ event = .execute worker := by
  have other : ∀ {mover phase}, current.workers mover ≠ .executing index →
      Function.update current.workers mover phase worker = .executing index := by
    intro mover phase idle
    have apart : worker ≠ mover := by
      intro same
      exact idle (same ▸ executing)
    rw [Function.update_of_ne apart, executing]
  cases event with
  | pick mover =>
      left
      simp only [schedulerStep] at accepted
      split at accepted
      · rename_i ready
        have idle : current.workers mover ≠ .executing index := by simp [ready.2]
        split at accepted
        · cases accepted
          exact other idle
        · cases accepted
          exact other idle
        · cases accepted
          exact other idle
      · simp at accepted
  | execute mover =>
      by_cases same : mover = worker
      · exact Or.inr (by rw [same])
      · left
        simp only [schedulerStep] at accepted
        split at accepted
        · cases accepted
          exact (Function.update_of_ne (Ne.symm same) _ _).trans executing
        · simp at accepted
  | complete mover =>
      left
      simp only [schedulerStep] at accepted
      split at accepted
      · rename_i finished
        cases accepted
        exact other (by simp [finished])
      · simp at accepted
  | notify mover =>
      left
      simp only [schedulerStep] at accepted
      split at accepted
      · rename_i notifying
        cases accepted
        have kept := @other mover .picking (by simp [notifying])
        simp [wakeAll, kept]
      · simp at accepted
  | wake mover =>
      left
      simp only [schedulerStep] at accepted
      split at accepted
      · rename_i waiting
        cases accepted
        exact other (by simp [waiting])
      · simp at accepted

/-- The scheduler keeps its books, and a worker is inside plugins only for a group it
executes: its own plugin, and those that were asked for from there. -/
structure CallInvariant (plans : List TaskGroupPlan) (stopOnFirstFailure : Bool)
    (executeTaskGroup : TaskGroup → World → List TransactionRecord × World)
    (resolvePluginName : String → String) (current : CallState World) : Prop where
  scheduler : SchedulerInvariant plans stopOnFirstFailure executeTaskGroup current.scheduler
  inside : ∀ worker, current.inside worker ≠ [] → ∃ index,
    current.scheduler.workers worker = .executing index ∧ ∀ plugin ∈ current.inside worker,
      plugin = resolvePluginName (systemOf plans index) ∨
        ∃ system, (index, system) ∈ current.callbacks ∧ plugin = resolvePluginName system

theorem callStep_invariant (consistent : PlansConsistent plans) {current next : CallState World}
    {event : CallEvent}
    (valid : CallInvariant plans stopOnFirstFailure executeTaskGroup resolvePluginName current)
    (accepted : callStep plans stopOnFirstFailure executeTaskGroup resolvePluginName isGatewaySystem current
      event = some next) :
    CallInvariant plans stopOnFirstFailure executeTaskGroup resolvePluginName next := by
  cases event with
  | scheduler event =>
      simp only [callStep] at accepted
      split at accepted
      · simp at accepted
      · rename_i outside
        simp only [Option.map_eq_some_iff] at accepted
        obtain ⟨moved, stepped, rfl⟩ := accepted
        refine ⟨valid.scheduler.move consistent (schedulerStep_move stepped), fun worker entered => ?_⟩
        obtain ⟨index, executing, plugins⟩ := valid.inside worker entered
        refine ⟨index, ?_, plugins⟩
        rcases schedulerStep_executing stepped executing with stays | executed
        · exact stays
        · rw [executed] at outside
          simp only [insideCall, Bool.not_eq_true', Bool.not_eq_false, List.isEmpty_iff] at outside
          exact absurd outside entered
  | enter worker =>
      simp only [callStep] at accepted
      split at accepted
      · rename_i index executing
        split at accepted
        · cases accepted
          refine ⟨valid.scheduler, fun other entered => ?_⟩
          by_cases same : other = worker
          · subst same
            refine ⟨index, executing, fun plugin member => Or.inl ?_⟩
            simpa using member
          · simp only [Function.update_of_ne same] at entered ⊢
            exact valid.inside other entered
        · simp at accepted
      · simp at accepted
  | callBack worker system =>
      simp only [callStep] at accepted
      split at accepted
      · rename_i index executing
        split at accepted
        · rename_i allowed
          cases accepted
          refine ⟨valid.scheduler, fun other entered => ?_⟩
          by_cases same : other = worker
          · subst same
            obtain ⟨held, also, plugins⟩ := valid.inside other allowed.1
            rw [executing] at also
            cases also
            refine ⟨index, executing, fun plugin member => ?_⟩
            simp only [Function.update_self] at member
            rcases List.mem_cons.mp member with new | old
            · exact Or.inr ⟨system, by simp, new⟩
            · rcases plugins plugin old with own | ⟨asked, logged, same⟩
              · exact Or.inl own
              · exact Or.inr ⟨asked, List.mem_append_left _ logged, same⟩
          · simp only [Function.update_of_ne same] at entered ⊢
            obtain ⟨held, executing, plugins⟩ := valid.inside other entered
            refine ⟨held, executing, fun plugin member => ?_⟩
            rcases plugins plugin member with own | ⟨asked, logged, same⟩
            · exact Or.inl own
            · exact Or.inr ⟨asked, List.mem_append_left _ logged, same⟩
        · simp at accepted
      · simp at accepted
  | leave worker =>
      simp only [callStep] at accepted
      split at accepted
      · simp at accepted
      · rename_i innermost outer nested
        cases accepted
        refine ⟨valid.scheduler, fun other entered => ?_⟩
        by_cases same : other = worker
        · subst same
          obtain ⟨index, executing, plugins⟩ := valid.inside other (by simp [nested])
          refine ⟨index, executing, fun plugin member => plugins plugin ?_⟩
          simp only [Function.update_self] at member
          rw [nested]
          exact List.mem_cons_of_mem _ member
        · simp only [Function.update_of_ne same] at entered ⊢
          exact valid.inside other entered

theorem runCalls_invariant (consistent : PlansConsistent plans) {workerCount : Nat} {world : World}
    {events : List CallEvent} {final : CallState World}
    (run : runCalls plans stopOnFirstFailure executeTaskGroup resolvePluginName isGatewaySystem workerCount
      world events = some final) :
    CallInvariant plans stopOnFirstFailure executeTaskGroup resolvePluginName final := by
  refine runEvents_invariant (fun _ _ _ valid accepted => callStep_invariant consistent valid accepted) ?_ run
  exact ⟨schedulerInvariant_initial consistent workerCount world, fun worker entered => absurd rfl entered⟩

/-- What stands before a started group has completed, however far before. -/
theorem Bookkeeping.completed_before {state : ParallelExecutionState} {log : List Observation}
    (books : Bookkeeping plans stopOnFirstFailure state log) {source target : Nat}
    (path : Relation.TransGen (fun source target => target ∈ successorsOf plans source) source target)
    (started : target ∈ startedIndices log) : source ∈ completedIndices log := by
  have direct : ∀ {source target}, target ∈ successorsOf plans source → target ∈ startedIndices log →
      source ∈ completedIndices log := by
    intro source target edge started
    obtain ⟨before, after, split⟩ := List.append_of_mem (mem_startedIndices.1 started)
    obtain ⟨records, member⟩ := mem_completedIndices.1 (books.gated before target after split source edge).1
    refine mem_completedIndices.2 ⟨records, ?_⟩
    rw [split]
    exact List.mem_append_left _ member
  induction path with
  | single edge => exact direct edge started
  | tail _ edge ih => exact ih (books.startedFirst _ (direct edge started))

end Invariant

section Examples

/-- An interpreter and a module that nobody has linked. -/
def unlinkedGraph : Graph where
  packages := [{ action := .install, system := "apt", name := "python" },
    { action := .install, system := "pip", name := "numpy" }]
  edges := []
  bounded := by decide

def unlinkedPlans : List TaskGroupPlan :=
  createPlans .posix id (createFromGraph .posix unlinkedGraph [1, 0]) (some unlinkedGraph)

/-- Two workers start, enter their plugins, and the second one calls back. -/
def callingBack (system : String) : List CallEvent :=
  [.scheduler (.pick 0), .scheduler (.pick 1), .enter 0, .enter 1, .callBack 1 system]

end Examples

end ReqPack.Scheduler
