import Mathlib.Algebra.BigOperators.Group.Finset.Basic
import Mathlib.Algebra.Order.BigOperators.Group.Finset
import Mathlib.Data.List.Perm.Subperm
import Mathlib.Algebra.BigOperators.Ring.Finset
import ReqPack.Executor.UpdateRuns

/-! # Progress of the update workers

A worker can always go on until all of them have left, and apart from spurious
wake-ups every step brings them closer to that.
-/

namespace ReqPack.Executor

open ReqPack.Data ReqPack.Core ReqPack.Planner ReqPack.Scheduler

variable {width : Nat} {tasks : List UpdateTask} {outcome : TaskGroup → Bool} {current next final : UpdateRun}
  {event : UpdateEvent}

/-! ## What is left to do -/

/-- How many steps a worker has before it, up to its next pick-step; a notification
pays for the workers it wakes. -/
def UpdatePhase.weight (workerCount : Nat) : UpdatePhase → Nat
  | .exited => 0
  | .waiting => 1
  | .picking => 2
  | .notifying => workerCount + 3
  | .stored _ _ => workerCount + 4
  | .loaded _ _ _ => workerCount + 5
  | .executed _ _ => workerCount + 6
  | .executing _ => workerCount + 7

def UpdateRun.workLeft (current : UpdateRun) : Nat :=
  ∑ worker ∈ Finset.range current.workerCount, (current.workers worker).weight current.workerCount

def UpdateRun.measure (tasks : List UpdateTask) (current : UpdateRun) : Nat :=
  current.workLeft + (current.workerCount + 6) * (tasks.length - current.starts.length)

theorem sum_update_add (count : Nat) (workers : Nat → UpdatePhase) {bound worker : Nat} (inside : worker < bound)
    (phase : UpdatePhase) :
    (∑ other ∈ Finset.range bound, (Function.update workers worker phase other).weight count) +
        (workers worker).weight count =
      (∑ other ∈ Finset.range bound, (workers other).weight count) + phase.weight count := by
  have member : worker ∈ Finset.range bound := Finset.mem_range.mpr inside
  have others : ∑ other ∈ (Finset.range bound).erase worker, (Function.update workers worker phase other).weight count =
      ∑ other ∈ (Finset.range bound).erase worker, (workers other).weight count :=
    Finset.sum_congr rfl fun other present => by rw [Function.update_of_ne (Finset.ne_of_mem_erase present)]
  rw [← Finset.add_sum_erase _ _ member, ← Finset.add_sum_erase (Finset.range bound) _ member, others,
    Function.update_self]
  omega

theorem workLeft_setPhase {worker : Nat} (inside : worker < current.workerCount) (phase : UpdatePhase) :
    (current.setPhase worker phase).workLeft + (current.workers worker).weight current.workerCount =
      current.workLeft + phase.weight current.workerCount :=
  sum_update_add current.workerCount current.workers inside phase

theorem woken_weight (count : Nat) (phase : UpdatePhase) : phase.woken.weight count ≤ phase.weight count + 1 := by
  cases phase <;> simp [UpdatePhase.woken, UpdatePhase.weight]

theorem Ledger.length_le {state : ParallelUpdateState} {starts : List Nat} (ledger : Ledger tasks state starts) :
    starts.length ≤ tasks.length := by
  have within : starts ⊆ List.range tasks.length := fun index member =>
    List.mem_range.mpr (ledger.bounded index member)
  have shorter := (List.subperm_of_subset ledger.once within).length_le
  rwa [List.length_range] at shorter

theorem UpdateInvariant.bound_of_ne (valid : UpdateInvariant tasks outcome current) {worker : Nat}
    (moved : current.workers worker ≠ .picking) : worker < current.workerCount := by
  by_contra outside
  exact moved (valid.holders.inside worker (Nat.not_lt.mp outside))

/-- Every step but a spurious wake-up leaves less to do. -/
theorem UpdateMove.measure_lt (valid : UpdateInvariant tasks outcome current)
    (move : UpdateMove width tasks outcome current event next) (wake : ∀ worker, event ≠ .wake worker) :
    next.measure tasks < current.measure tasks := by
  have after : Ledger tasks next.state next.starts := (valid.move move).ledger
  cases move with
  | @leave worker queue bound before resting scanned =>
      have total := workLeft_setPhase bound .exited
      rw [before] at total
      simp only [UpdatePhase.weight] at total
      change UpdateRun.workLeft (current.setPhase worker .exited) + _ < _
      rw [UpdateRun.measure]
      exact Nat.add_lt_add_right (by omega) _
  | @wait worker queue bound before working scanned =>
      have total := workLeft_setPhase bound .waiting
      rw [before] at total
      simp only [UpdatePhase.weight] at total
      change UpdateRun.workLeft (current.setPhase worker .waiting) + _ < _
      rw [UpdateRun.measure]
      exact Nat.add_lt_add_right (by omega) _
  | @start worker candidate queue bound before scanned =>
      have total := workLeft_setPhase bound (.executing candidate)
      rw [before] at total
      simp only [UpdatePhase.weight] at total
      have room : current.starts.length + 1 ≤ tasks.length := by
        simpa [UpdateRun.setPhase] using after.length_le
      change UpdateRun.workLeft (current.setPhase worker (.executing candidate)) +
        (current.workerCount + 6) * (tasks.length - (current.starts ++ [candidate]).length) < _
      rw [UpdateRun.measure, List.length_append, List.length_singleton]
      obtain ⟨rest, equal⟩ := Nat.exists_eq_add_of_le room
      have less : tasks.length - (current.starts.length + 1) = rest := by omega
      have more : tasks.length - current.starts.length = rest + 1 := by omega
      rw [less, more, Nat.mul_succ]
      omega
  | @execute worker index before =>
      have total := workLeft_setPhase (valid.bound_of_ne (by rw [before]; simp))
        (.executed index (outcomeAt tasks outcome index))
      rw [before] at total
      simp only [UpdatePhase.weight] at total
      exact Nat.add_lt_add_right (by omega) _
  | @load worker index ok before =>
      have total := workLeft_setPhase (valid.bound_of_ne (by rw [before]; simp))
        (.loaded index ok (readWord width current.results (slotAt tasks index)))
      rw [before] at total
      simp only [UpdatePhase.weight] at total
      exact Nat.add_lt_add_right (by omega) _
  | @store worker index ok word before =>
      have total := workLeft_setPhase (valid.bound_of_ne (by rw [before]; simp)) (.stored index ok)
      rw [before] at total
      simp only [UpdatePhase.weight] at total
      change UpdateRun.workLeft (current.setPhase worker (.stored index ok)) + _ < _
      rw [UpdateRun.measure]
      exact Nat.add_lt_add_right (by omega) _
  | @complete worker index ok before =>
      have total := workLeft_setPhase (valid.bound_of_ne (by rw [before]; simp)) .notifying
      rw [before] at total
      simp only [UpdatePhase.weight] at total
      change UpdateRun.workLeft (current.setPhase worker .notifying) + _ < _
      rw [UpdateRun.measure]
      exact Nat.add_lt_add_right (by omega) _
  | @notify worker before =>
      have total := workLeft_setPhase (valid.bound_of_ne (by rw [before]; simp)) .picking
      rw [before] at total
      simp only [UpdatePhase.weight] at total
      have woken : ∑ other ∈ Finset.range current.workerCount,
            ((Function.update current.workers worker .picking other).woken).weight current.workerCount ≤
          (current.setPhase worker .picking).workLeft + current.workerCount := by
        calc ∑ other ∈ Finset.range current.workerCount,
              ((Function.update current.workers worker .picking other).woken).weight current.workerCount
            ≤ ∑ other ∈ Finset.range current.workerCount,
              ((Function.update current.workers worker .picking other).weight current.workerCount + 1) :=
              Finset.sum_le_sum fun other _ => woken_weight _ _
          _ = (current.setPhase worker .picking).workLeft + current.workerCount := by
              rw [Finset.sum_add_distrib]
              simp [UpdateRun.workLeft, UpdateRun.setPhase]
      change (∑ other ∈ Finset.range current.workerCount,
        ((Function.update current.workers worker .picking other).woken).weight current.workerCount) + _ < _
      rw [UpdateRun.measure]
      exact Nat.add_lt_add_right (by omega) _
  | @wake worker before => exact absurd rfl (wake worker)

theorem UpdateMove.workerCount (move : UpdateMove width tasks outcome current event next) :
    next.workerCount = current.workerCount := by
  cases move <;> rfl

/-! ## Somebody can go on -/

/-- A worker that neither waits nor left has a step of its own. -/
theorem exists_step {worker : Nat} (bound : worker < current.workerCount)
    (awake : current.workers worker ≠ .waiting) (present : current.workers worker ≠ .exited) :
    ∃ event next, (∀ other, event ≠ UpdateEvent.wake other) ∧
      updateStep width tasks outcome false current event = some next := by
  cases phase : current.workers worker with
  | picking =>
      refine ⟨.pick worker, ?_⟩
      cases picked : pickTask tasks current.state with
      | mk choice state =>
          cases choice <;>
            exact ⟨_, by simp, by simp only [updateStep, phase, if_pos bound, picked]; rfl⟩
  | waiting => exact absurd phase awake
  | executing index => exact ⟨.execute worker, _, by simp, by simp only [updateStep, phase]; rfl⟩
  | executed index ok => exact ⟨.load worker, _, by simp, by simp only [updateStep, phase]; rfl⟩
  | loaded index ok word => exact ⟨.store worker, _, by simp, by simp only [updateStep, phase]; rfl⟩
  | stored index ok => exact ⟨.complete worker, _, by simp, by simp only [updateStep, phase]; rfl⟩
  | notifying => exact ⟨.notify worker, _, by simp, by simp only [updateStep, phase]; rfl⟩
  | exited => exact absurd phase present

theorem UpdateInvariant.progress (valid : UpdateInvariant tasks outcome current) (unfinished : ¬ current.Terminated) :
    ∃ event next, (∀ other, event ≠ UpdateEvent.wake other) ∧
      updateStep width tasks outcome false current event = some next := by
  simp only [UpdateRun.Terminated, not_forall] at unfinished
  obtain ⟨worker, bound, present⟩ := unfinished
  by_cases asleep : current.workers worker = .waiting
  · -- somebody else will wake it
    obtain ⟨other, task | notifying⟩ := valid.waiting worker asleep
    · have phase : ∀ rest, current.workers other = rest → rest.task = none → False := by
        intro rest equal none
        rw [UpdateRun.holds, equal, none] at task
        cases task
      have moved : current.workers other ≠ .picking := fun same => phase _ same rfl
      exact exists_step (valid.bound_of_ne moved) (fun same => phase _ same rfl) fun same => phase _ same rfl
    · exact exists_step (valid.bound_of_ne (by rw [notifying]; simp)) (by rw [notifying]; simp)
        (by rw [notifying]; simp)
  · exact exists_step bound asleep present

/-- From every state the workers can all be brought to leave. -/
theorem UpdateInvariant.finishes (width : Nat) (valid : UpdateInvariant tasks outcome current) :
    ∃ events final, runEvents (updateStep width tasks outcome false) current events = some final ∧
      final.Terminated := by
  induction left : current.measure tasks using Nat.strong_induction_on generalizing current with
  | _ left ih =>
      by_cases done : current.Terminated
      · exact ⟨[], current, rfl, done⟩
      · obtain ⟨event, next, wake, accepted⟩ := @UpdateInvariant.progress width _ _ _ valid done
        have move := updateStep_move valid.ledger.launching accepted
        obtain ⟨events, final, run, ended⟩ :=
          ih (next.measure tasks) (left ▸ move.measure_lt valid wake) (valid.move move) rfl
        exact ⟨event :: events, final, by rw [runEvents, accepted]; exact run, ended⟩

end ReqPack.Executor
