import Mathlib.Algebra.BigOperators.Group.Finset.Basic
import Mathlib.Algebra.Order.BigOperators.Group.Finset
import Mathlib.Tactic.Tauto
import ReqPack.Scheduler.Parallel

/-! # What the history of a run says

Both paths of the scheduler record which group was started and which was
completed with which records.  The promises of the scheduler are statements
about that history alone; the flags and counters are its bookkeeping.
-/

namespace ReqPack.Scheduler

open ReqPack.Data ReqPack.Core

def startedIndices (log : List Observation) : List Nat :=
  log.filterMap fun observation =>
    match observation with
    | .started index => some index
    | .completed _ _ => none

def completedIndices (log : List Observation) : List Nat :=
  log.filterMap fun observation =>
    match observation with
    | .started _ => none
    | .completed index _ => some index

/-- The groups that were started and have not completed, in the order of their start. -/
def runningGroups (log : List Observation) : List Nat :=
  (startedIndices log).filter fun index => index ∉ completedIndices log

def ReportedFailure (log : List Observation) (index : Nat) : Prop :=
  ∃ records, .completed index records ∈ log ∧ hasFailure records = true

/-- Whenever a group is started, every group that has it as a successor has
completed by then, and reported no failed record. -/
def Gated (plans : List TaskGroupPlan) (log : List Observation) : Prop :=
  ∀ before index after, log = before ++ .started index :: after →
    ∀ source, index ∈ successorsOf plans source →
      source ∈ completedIndices before ∧ ¬ ReportedFailure before source

/-- No group is started once some group has reported a failed record. -/
def StopsAfterFailure (log : List Observation) : Prop :=
  ∀ before index after, log = before ++ .started index :: after →
    ∀ source, ¬ ReportedFailure before source

section Extension

variable {log : List Observation} {index : Nat} {records : List TransactionRecord}

@[simp] theorem startedIndices_nil : startedIndices [] = [] := rfl

@[simp] theorem completedIndices_nil : completedIndices [] = [] := rfl

@[simp] theorem startedIndices_started :
    startedIndices (log ++ [.started index]) = startedIndices log ++ [index] := by
  simp [startedIndices]

@[simp] theorem startedIndices_completed :
    startedIndices (log ++ [.completed index records]) = startedIndices log := by
  simp [startedIndices]

@[simp] theorem completedIndices_started :
    completedIndices (log ++ [.started index]) = completedIndices log := by
  simp [completedIndices]

@[simp] theorem completedIndices_completed :
    completedIndices (log ++ [.completed index records]) = completedIndices log ++ [index] := by
  simp [completedIndices]

@[simp] theorem reportedFailure_nil : ¬ ReportedFailure [] index := by
  simp [ReportedFailure]

@[simp] theorem reportedFailure_started {other : Nat} :
    ReportedFailure (log ++ [.started index]) other ↔ ReportedFailure log other := by
  simp [ReportedFailure]

theorem reportedFailure_completed {other : Nat} :
    ReportedFailure (log ++ [.completed index records]) other ↔
      ReportedFailure log other ∨ (other = index ∧ hasFailure records = true) := by
  constructor
  · rintro ⟨reported, member, failed⟩
    rcases List.mem_append.mp member with old | new
    · exact Or.inl ⟨reported, old, failed⟩
    · obtain ⟨rfl, rfl⟩ := Observation.completed.inj (List.mem_singleton.mp new)
      exact Or.inr ⟨rfl, failed⟩
  · rintro (⟨reported, member, failed⟩ | ⟨rfl, failed⟩)
    · exact ⟨reported, List.mem_append_left _ member, failed⟩
    · exact ⟨records, List.mem_append_right _ List.mem_cons_self, failed⟩

theorem mem_completedIndices : index ∈ completedIndices log ↔ ∃ records, .completed index records ∈ log := by
  simp only [completedIndices, List.mem_filterMap]
  constructor
  · rintro ⟨observation, member, same⟩
    cases observation with
    | started _ => simp at same
    | completed other records =>
        simp only [Option.some.injEq] at same
        exact ⟨records, same ▸ member⟩
  · rintro ⟨records, member⟩
    exact ⟨_, member, rfl⟩

theorem mem_startedIndices : index ∈ startedIndices log ↔ .started index ∈ log := by
  simp only [startedIndices, List.mem_filterMap]
  constructor
  · rintro ⟨observation, member, same⟩
    cases observation with
    | started other =>
        simp only [Option.some.injEq] at same
        exact same ▸ member
    | completed _ _ => simp at same
  · intro member
    exact ⟨_, member, rfl⟩

theorem ReportedFailure.completed (reported : ReportedFailure log index) :
    index ∈ completedIndices log := by
  obtain ⟨records, member, _⟩ := reported
  exact mem_completedIndices.2 ⟨records, member⟩

theorem mem_runningGroups :
    index ∈ runningGroups log ↔ index ∈ startedIndices log ∧ index ∉ completedIndices log := by
  simp [runningGroups]

theorem runningGroups_started (fresh : index ∉ completedIndices log) :
    runningGroups (log ++ [.started index]) = runningGroups log ++ [index] := by
  simp [runningGroups, List.filter_append, fresh]

theorem runningGroups_completed :
    runningGroups (log ++ [.completed index records]) =
      (runningGroups log).filter fun other => other ≠ index := by
  unfold runningGroups
  rw [startedIndices_completed, completedIndices_completed, List.filter_filter]
  apply List.filter_congr
  intro other _
  simp only [List.mem_append, List.mem_singleton, not_or, Bool.decide_and, Bool.and_comm]

/-- A statement about every start of a history that grew by one observation. -/
theorem forall_start_concat {property : List Observation → Nat → Prop} {observation : Observation}
    (old : ∀ before index after, log = before ++ .started index :: after → property before index)
    (new : ∀ index, observation = .started index → property log index) :
    ∀ before index after, log ++ [observation] = before ++ .started index :: after →
      property before index := by
  intro before index after split
  rcases List.eq_nil_or_concat after with rfl | ⟨front, last, rfl⟩
  · obtain ⟨rfl, equal⟩ := List.append_inj' split rfl
    exact new index (List.singleton_inj.mp equal)
  · rw [List.concat_eq_append, ← List.cons_append, ← List.append_assoc] at split
    obtain ⟨rfl, _⟩ := List.append_inj' split rfl
    exact old before index front rfl

theorem Gated.concat {plans : List TaskGroupPlan} {observation : Observation}
    (gated : Gated plans log)
    (new : ∀ index, observation = .started index → ∀ source, index ∈ successorsOf plans source →
      source ∈ completedIndices log ∧ ¬ ReportedFailure log source) :
    Gated plans (log ++ [observation]) :=
  forall_start_concat gated new

theorem StopsAfterFailure.concat {observation : Observation} (stops : StopsAfterFailure log)
    (new : ∀ index, observation = .started index → ∀ source, ¬ ReportedFailure log source) :
    StopsAfterFailure (log ++ [observation]) :=
  forall_start_concat stops new

@[simp] theorem gated_nil (plans : List TaskGroupPlan) : Gated plans [] := by
  intro before index after split
  simp at split

@[simp] theorem stopsAfterFailure_nil : StopsAfterFailure [] := by
  intro before index after split
  simp at split

end Extension

section Counting

/-- How often groups that have not completed list `target` as a successor.  This
is what the pending counter of `target` counts down. -/
def openIncoming (plans : List TaskGroupPlan) (log : List Observation) (target : Nat) : Nat :=
  Finset.sum ((Finset.range plans.length).filter fun source => source ∉ completedIndices log)
    fun source => (successorsOf plans source).count target

variable {plans : List TaskGroupPlan} {log : List Observation}

theorem incoming_eq_sum (plans : List TaskGroupPlan) (target : Nat) :
    incoming plans target =
      Finset.sum (Finset.range plans.length) fun source => (successorsOf plans source).count target := by
  have pointwise : (plans.map fun plan => plan.successors.count target) =
      (List.range plans.length).map fun source => (successorsOf plans source).count target := by
    apply List.ext_getElem
    · simp
    · intro source bound _
      have inside : source < plans.length := by simpa using bound
      simp [successorsOf_eq inside]
  rw [incoming, pointwise]
  rfl

theorem openIncoming_nil (plans : List TaskGroupPlan) (target : Nat) :
    openIncoming plans [] target = incoming plans target := by
  rw [incoming_eq_sum]
  simp [openIncoming]

@[simp] theorem openIncoming_started (index target : Nat) :
    openIncoming plans (log ++ [.started index]) target = openIncoming plans log target := by
  simp [openIncoming]

theorem openIncoming_completed {index : Nat} {records : List TransactionRecord}
    (bound : index < plans.length) (fresh : index ∉ completedIndices log) (target : Nat) :
    openIncoming plans (log ++ [.completed index records]) target =
      openIncoming plans log target - (successorsOf plans index).count target := by
  have remaining : ((Finset.range plans.length).filter fun source =>
      source ∉ completedIndices (log ++ [.completed index records])) =
      ((Finset.range plans.length).filter fun source => source ∉ completedIndices log).erase index := by
    ext source
    simp only [completedIndices_completed, Finset.mem_filter, Finset.mem_range, List.mem_append,
      List.mem_singleton, not_or, Finset.mem_erase]
    tauto
  have present : index ∈
      (Finset.range plans.length).filter fun source => source ∉ completedIndices log :=
    Finset.mem_filter.mpr ⟨Finset.mem_range.mpr bound, fresh⟩
  have total := Finset.add_sum_erase _ (fun source => (successorsOf plans source).count target) present
  simp only [openIncoming]
  rw [remaining, ← total, Nat.add_sub_cancel_left]

/-- Once nothing open points to a group, all groups that point to it have completed. -/
theorem completed_of_openIncoming_eq_zero {source target : Nat}
    (zero : openIncoming plans log target = 0) (edge : target ∈ successorsOf plans source) :
    source ∈ completedIndices log := by
  by_contra running
  have counted := Finset.sum_eq_zero_iff.mp zero source
    (Finset.mem_filter.mpr ⟨Finset.mem_range.mpr (lt_length_of_mem_successorsOf edge), running⟩)
  exact absurd edge (List.count_eq_zero.mp counted)

theorem exists_open_of_openIncoming_ne_zero {target : Nat}
    (positive : openIncoming plans log target ≠ 0) :
    ∃ source, target ∈ successorsOf plans source ∧ source ∉ completedIndices log := by
  obtain ⟨source, member, counted⟩ := Finset.exists_ne_zero_of_sum_ne_zero positive
  refine ⟨source, ?_, (Finset.mem_filter.mp member).2⟩
  by_contra absent
  exact counted (List.count_eq_zero.mpr absent)

end Counting

end ReqPack.Scheduler
