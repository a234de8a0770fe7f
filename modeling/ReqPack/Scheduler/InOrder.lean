import ReqPack.Scheduler.Sequential

/-! # Running groups without a graph

Recovery hands its groups to the scheduler without a graph.  There are no edges
then, nothing is ever blocked, and the loop is a plain walk over the groups that
may stop at the first failure.
-/

namespace ReqPack.Scheduler

open ReqPack.Data ReqPack.Core

universe u

variable {World : Type u}

/-- Execute the groups one after the other. -/
def runInOrder (stopOnFirstFailure : Bool)
    (executeTaskGroup : TaskGroup → World → List TransactionRecord × World) :
    List TaskGroup → World → List TransactionRecord × World
  | [], world => ([], world)
  | group :: groups, world =>
      let result := executeTaskGroup group world
      if stopOnFirstFailure && hasFailure result.1 then result
      else
        let rest := runInOrder stopOnFirstFailure executeTaskGroup groups result.2
        (result.1 ++ rest.1, rest.2)

section Equivalence

variable {plans : List TaskGroupPlan} (stopOnFirstFailure : Bool)
  (executeTaskGroup : TaskGroup → World → List TransactionRecord × World)

theorem foldl_sequentialStep_stopped {state : SequentialState World} (stopped : state.stopped = true)
    (indices : List Nat) :
    indices.foldl (sequentialStep plans stopOnFirstFailure executeTaskGroup) state = state := by
  refine List.foldl_fixed' (fun index => ?_) indices
  simp [sequentialStep, stopped]

theorem foldl_sequentialStep_inOrder (free : ∀ index, successorsOf plans index = [])
    (state : SequentialState World) (running : state.stopped = false)
    (clear : ∀ index, state.blocked index = false) (ready : ∀ index, state.pendingDependencies index = 0)
    (indices : List Nat) :
    (indices.foldl (sequentialStep plans stopOnFirstFailure executeTaskGroup) state).records =
        state.records ++ (runInOrder stopOnFirstFailure executeTaskGroup
          (indices.map (taskGroupOf plans)) state.world).1 ∧
      (indices.foldl (sequentialStep plans stopOnFirstFailure executeTaskGroup) state).world =
        (runInOrder stopOnFirstFailure executeTaskGroup
          (indices.map (taskGroupOf plans)) state.world).2 := by
  induction indices generalizing state with
  | nil => simp [runInOrder]
  | cons index indices ih =>
      have step : sequentialStep plans stopOnFirstFailure executeTaskGroup state index =
          { state with
            records := state.records ++ (executeTaskGroup (taskGroupOf plans index) state.world).1
            stopped := hasFailure (executeTaskGroup (taskGroupOf plans index) state.world).1 &&
              stopOnFirstFailure
            world := (executeTaskGroup (taskGroupOf plans index) state.world).2
            log := (sequentialStep plans stopOnFirstFailure executeTaskGroup state index).log } := by
        simp [sequentialStep, running, clear, ready, free]
      rw [List.foldl_cons, List.map_cons, runInOrder]
      cases failed : stopOnFirstFailure &&
          hasFailure (executeTaskGroup (taskGroupOf plans index) state.world).1 with
      | true =>
          rw [foldl_sequentialStep_stopped]
          · rw [step]
            simp
          · rw [step]
            simpa [Bool.and_comm] using failed
      | false =>
          obtain ⟨records, world⟩ := ih
            (sequentialStep plans stopOnFirstFailure executeTaskGroup state index)
            (by rw [step]; simpa [Bool.and_comm] using failed)
            (by rw [step]; exact clear) (by rw [step]; exact ready)
          rw [records, world, step]
          simp

/-- Without a graph the sequential path walks over the groups. -/
theorem runSequential_inOrder (platform : Platform) (resolvePluginName : String → String)
    (groups : List TaskGroup) (world : World) :
    let final := runSequential (createPlans platform resolvePluginName groups none) stopOnFirstFailure
      executeTaskGroup world
    (final.records, final.world) = runInOrder stopOnFirstFailure executeTaskGroup groups world := by
  have plans : createPlans platform resolvePluginName groups none =
      groups.map fun taskGroup => ({ taskGroup := taskGroup } : TaskGroupPlan) := rfl
  have free : ∀ index, successorsOf (createPlans platform resolvePluginName groups none) index = [] := by
    intro index
    rw [plans]
    cases found : groups[index]? <;> simp [successorsOf, List.getD_eq_getElem?_getD, found]
  have ready : ∀ index, pendingOf (createPlans platform resolvePluginName groups none) index = 0 := by
    intro index
    rw [plans]
    cases found : groups[index]? <;> simp [pendingOf, List.getD_eq_getElem?_getD, found]
  have walked : (List.range (createPlans platform resolvePluginName groups none).length).map
      (taskGroupOf (createPlans platform resolvePluginName groups none)) = groups := by
    rw [plans]
    apply List.ext_getElem
    · simp
    · intro index bound inside
      simp [taskGroupOf, List.getD_eq_getElem?_getD, inside]
  obtain ⟨records, final⟩ := foldl_sequentialStep_inOrder stopOnFirstFailure executeTaskGroup free
    (initialSequential (createPlans platform resolvePluginName groups none) world) rfl
    (fun _ => rfl) ready (List.range (createPlans platform resolvePluginName groups none).length)
  rw [walked] at records final
  exact Prod.ext records final

end Equivalence

section Visits

variable {stopOnFirstFailure : Bool}
  {executeTaskGroup : TaskGroup → World → List TransactionRecord × World}
  {groups earlier : List TaskGroup} {group : TaskGroup} {world before : World}

/-- The walk comes to `group` behind `earlier`, in the world `before`. -/
structure Visits (stopOnFirstFailure : Bool)
    (executeTaskGroup : TaskGroup → World → List TransactionRecord × World) (groups : List TaskGroup)
    (world : World) (earlier : List TaskGroup) (group : TaskGroup) (before : World) : Prop where
  split : ∃ later, groups = earlier ++ group :: later
  passed : stopOnFirstFailure = true →
    hasFailure (runInOrder stopOnFirstFailure executeTaskGroup earlier world).1 = false
  reached : before = (runInOrder stopOnFirstFailure executeTaskGroup earlier world).2

theorem Visits.mem (visits : Visits stopOnFirstFailure executeTaskGroup groups world earlier group before) :
    group ∈ groups := by
  obtain ⟨later, rfl⟩ := visits.split
  simp

theorem Visits.first (stopOnFirstFailure : Bool)
    (executeTaskGroup : TaskGroup → World → List TransactionRecord × World) (group : TaskGroup)
    (groups : List TaskGroup) (world : World) :
    Visits stopOnFirstFailure executeTaskGroup (group :: groups) world [] group world :=
  ⟨⟨groups, rfl⟩, fun _ => rfl, rfl⟩

theorem hasFailure_append (first second : List TransactionRecord) :
    hasFailure (first ++ second) = (hasFailure first || hasFailure second) := by
  simp [hasFailure]

/-- The walk over one more group in front, when that group lets it go on. -/
theorem Visits.behind {front : TaskGroup}
    (on : (stopOnFirstFailure && hasFailure (executeTaskGroup front world).1) = false)
    (visits : Visits stopOnFirstFailure executeTaskGroup groups (executeTaskGroup front world).2
      earlier group before) :
    Visits stopOnFirstFailure executeTaskGroup (front :: groups) world (front :: earlier) group before := by
  obtain ⟨later, split⟩ := visits.split
  refine ⟨⟨later, by rw [split, List.cons_append]⟩, fun stops => ?_, ?_⟩
  · simp only [stops, Bool.true_and] at on
    simp only [runInOrder, on, Bool.and_false, Bool.false_eq_true, if_false, hasFailure_append,
      visits.passed stops, Bool.or_false]
  · simp only [runInOrder, on, Bool.false_eq_true, if_false]
    exact visits.reached

/-- Groups that stand ahead of a visited group were visited, and did not fail if
failures stop the walk. -/
theorem Visits.ahead
    (visits : Visits stopOnFirstFailure executeTaskGroup groups world earlier group before)
    {other : TaskGroup} (member : other ∈ earlier) :
    ∃ front middle, Visits stopOnFirstFailure executeTaskGroup earlier world front other middle ∧
      (stopOnFirstFailure = true → hasFailure (executeTaskGroup other middle).1 = false) := by
  induction earlier generalizing groups world with
  | nil => simp at member
  | cons first rest ih =>
      obtain ⟨later, rfl⟩ := visits.split
      have passed : stopOnFirstFailure = true → hasFailure (executeTaskGroup first world).1 = false ∧
          hasFailure (runInOrder stopOnFirstFailure executeTaskGroup rest
            (executeTaskGroup first world).2).1 = false := by
        intro stops
        have whole := visits.passed stops
        cases failed : hasFailure (executeTaskGroup first world).1 with
        | true => simp [runInOrder, stops, failed] at whole
        | false => simpa [runInOrder, stops, failed, hasFailure_append] using whole
      have on : (stopOnFirstFailure && hasFailure (executeTaskGroup first world).1) = false := by
        cases stops : stopOnFirstFailure with
        | true => simpa using (passed stops).1
        | false => rfl
      rcases List.mem_cons.mp member with rfl | inside
      · exact ⟨[], world, .first _ _ _ _ _, fun stops => (passed stops).1⟩
      · have tail : Visits stopOnFirstFailure executeTaskGroup (rest ++ group :: later)
            (executeTaskGroup first world).2 rest group before := by
          refine ⟨⟨later, rfl⟩, fun stops => (passed stops).2, ?_⟩
          have reached := visits.reached
          simp only [runInOrder, on, Bool.false_eq_true, if_false] at reached
          exact reached
        obtain ⟨front, middle, visited, clean⟩ := ih tail inside
        exact ⟨first :: front, middle, visited.behind on, clean⟩

/-- Whatever holds between the worlds around every group holds around the walk. -/
theorem runInOrder_respects (relation : World → World → Prop) (refl : ∀ world, relation world world)
    (trans : ∀ first second third, relation first second → relation second third → relation first third)
    (stepwise : ∀ group world, relation world (executeTaskGroup group world).2)
    (stopOnFirstFailure : Bool) (groups : List TaskGroup) (world : World) :
    relation world (runInOrder stopOnFirstFailure executeTaskGroup groups world).2 := by
  induction groups generalizing world with
  | nil => exact refl world
  | cons group groups ih =>
      simp only [runInOrder]
      split
      · exact stepwise group world
      · exact trans _ _ _ (stepwise group world) (ih _)

/-- The records of the walk are the records of the groups it comes to. -/
theorem mem_runInOrder_visits {record : TransactionRecord}
    (member : record ∈ (runInOrder stopOnFirstFailure executeTaskGroup groups world).1) :
    ∃ earlier group before, Visits stopOnFirstFailure executeTaskGroup groups world earlier group before ∧
      record ∈ (executeTaskGroup group before).1 := by
  induction groups generalizing world with
  | nil => simp [runInOrder] at member
  | cons group groups ih =>
      simp only [runInOrder] at member
      split at member
      · exact ⟨[], group, world, .first _ _ _ _ _, member⟩
      · rename_i on
        rcases List.mem_append.mp member with own | later
        · exact ⟨[], group, world, .first _ _ _ _ _, own⟩
        · obtain ⟨earlier, other, before, visits, listed⟩ := ih later
          exact ⟨group :: earlier, other, before, visits.behind (by simpa using on), listed⟩

/-- What is written at the end of a log during the walk was written by a group it
comes to. -/
theorem mem_runInOrder_log {Entry : Type*} (log : World → List Entry)
    (stepwise : ∀ group world, log world <+: log (executeTaskGroup group world).2) {entry : Entry}
    (member : entry ∈ (log (runInOrder stopOnFirstFailure executeTaskGroup groups world).2).drop
      (log world).length) :
    ∃ earlier group before, Visits stopOnFirstFailure executeTaskGroup groups world earlier group before ∧
      entry ∈ (log (executeTaskGroup group before).2).drop (log before).length := by
  induction groups generalizing world with
  | nil => simp [runInOrder] at member
  | cons group groups ih =>
      simp only [runInOrder] at member
      split at member
      · exact ⟨[], group, world, .first _ _ _ _ _, member⟩
      · rename_i on
        obtain ⟨own, grown⟩ := stepwise group world
        obtain ⟨rest, further⟩ := runInOrder_respects (fun first second => log first <+: log second)
          (fun _ => List.prefix_refl _) (fun _ _ _ => List.IsPrefix.trans) stepwise stopOnFirstFailure groups
          (executeTaskGroup group world).2
        rw [← further, ← grown, List.append_assoc, List.drop_left] at member
        rcases List.mem_append.mp member with first | later
        · exact ⟨[], group, world, .first _ _ _ _ _, by rw [← grown, List.drop_left]; exact first⟩
        · have behind : entry ∈ (log (runInOrder stopOnFirstFailure executeTaskGroup groups
              (executeTaskGroup group world).2).2).drop (log (executeTaskGroup group world).2).length := by
            rw [← further, List.drop_left]
            exact later
          obtain ⟨earlier, other, before, visits, listed⟩ := ih behind
          exact ⟨group :: earlier, other, before, visits.behind (by simpa using on), listed⟩

end Visits

end ReqPack.Scheduler
