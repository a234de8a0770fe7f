import Mathlib.Algebra.GroupWithZero.Nat
import Mathlib.Algebra.BigOperators.Group.List.Basic
import ReqPack.Scheduler.TaskGroups

/-! # Task group plans

`TaskGraphBuilder::createPlans` turns the package edges into schedule edges
between groups.  `PlansConsistent` is what the scheduler relies on: the pending
count of a group is the number of times it occurs among the successors.
-/

namespace ReqPack.Scheduler

open ReqPack.Data ReqPack.Core

/-- `Executer::TaskGroupPlan`. -/
structure TaskGroupPlan where
  taskGroup : TaskGroup
  successors : List Nat := []
  pendingDependencies : Nat := 0
deriving Repr, DecidableEq, Inhabited

/-- `packageToGroupIndex`: a later group overwrites an earlier one under the same key. -/
def packageToGroupIndex (taskGroups : List TaskGroup) : String → Option Nat :=
  taskGroups.zipIdx.foldl (fun index entry =>
    entry.1.packages.foldl (fun index package =>
      Function.update index (packageIdentityKey package) (some entry.2)) index) fun _ => none

structure ScheduleState where
  plans : List TaskGroupPlan
  seenEdges : List (Nat × Nat) := []

/-- List one group among the successors of another and count it there. -/
def linkPlans (plans : List TaskGroupPlan) (sourceGroup targetGroup : Nat) : List TaskGroupPlan :=
  (plans.modify sourceGroup fun plan =>
    { plan with successors := plan.successors ++ [targetGroup] }).modify targetGroup fun plan =>
      { plan with pendingDependencies := plan.pendingDependencies + 1 }

def addScheduleEdge (state : ScheduleState) (sourceGroup targetGroup : Nat) : ScheduleState :=
  if sourceGroup = targetGroup then state
  else if (sourceGroup, targetGroup) ∈ state.seenEdges then state
  else
    { plans := linkPlans state.plans sourceGroup targetGroup
      seenEdges := (sourceGroup, targetGroup) :: state.seenEdges }

/-- Remember a system other than Nix that depends on a Nix group: a consumer for
which a Windows build may soft-skip the group. -/
def addNixSoftSkipConsumer (plan : TaskGroupPlan) (consumer : String) : TaskGroupPlan :=
  if consumer ∈ plan.taskGroup.nixSoftSkipConsumers then plan
  else { plan with taskGroup := { plan.taskGroup with
    nixSoftSkipConsumers := plan.taskGroup.nixSoftSkipConsumers ++ [consumer] } }

def noteNixSoftSkip (state : ScheduleState) (sourceGroup : Nat)
    (resolvedSource resolvedTarget : String) : ScheduleState :=
  if isNixInstallSystem resolvedSource && !isNixInstallSystem resolvedTarget then
    { state with plans := state.plans.modify sourceGroup fun plan =>
        addNixSoftSkipConsumer plan resolvedTarget }
  else state

/-- The loop body of `createPlans` for one package edge. -/
def scheduleGraphEdge (platform : Platform) (resolvePluginName : String → String)
    (groupIndex : String → Option Nat) (graph : Graph) (state : ScheduleState)
    (edge : Nat × Nat) : ScheduleState :=
  let sourcePackage := graph.package edge.1
  let targetPackage := graph.package edge.2
  match groupIndex (packageIdentityKey sourcePackage),
      groupIndex (packageIdentityKey targetPackage) with
  | some sourceGroup, some targetGroup =>
      let resolvedSource := resolvePluginName sourcePackage.system
      let resolvedTarget := resolvePluginName targetPackage.system
      let noted := noteNixSoftSkip state sourceGroup resolvedSource resolvedTarget
      if platform.shouldIgnoreScheduleEdge resolvedSource resolvedTarget then noted
      else addScheduleEdge noted sourceGroup targetGroup
  | _, _ => state

def isPlanInstallLike (action : ActionType) : Bool := action == .install || action == .ensure

/-- Indices of the install or ensure groups on one side of the Nix barrier. -/
def barrierGroups (resolvePluginName : String → String) (taskGroups : List TaskGroup)
    (nix : Bool) : List Nat :=
  (List.range taskGroups.length).filter fun index =>
    let group := taskGroups.getD index {}
    isPlanInstallLike group.action && isNixInstallSystem (resolvePluginName group.system) == nix

def addBarrier (resolvePluginName : String → String) (taskGroups : List TaskGroup)
    (state : ScheduleState) : ScheduleState :=
  (barrierGroups resolvePluginName taskGroups true).foldl (fun state nixGroup =>
    (barrierGroups resolvePluginName taskGroups false).foldl (fun state nonNixGroup =>
      addScheduleEdge state nonNixGroup nixGroup) state) state

/-- `TaskGraphBuilder::createPlans`. -/
def createPlans (platform : Platform) (resolvePluginName : String → String)
    (taskGroups : List TaskGroup) (graph : Option Graph) : List TaskGroupPlan :=
  let plans := taskGroups.map fun taskGroup => ({ taskGroup := taskGroup } : TaskGroupPlan)
  match graph with
  | none => plans
  | some graph =>
      let scheduled := graph.edges.foldl
        (scheduleGraphEdge platform resolvePluginName (packageToGroupIndex taskGroups) graph)
        { plans := plans }
      let barred :=
        if platform.needsNonNixBeforeNixBarrier then
          addBarrier resolvePluginName taskGroups scheduled
        else scheduled
      barred.plans

def successorsOf (plans : List TaskGroupPlan) (index : Nat) : List Nat :=
  (plans.getD index { taskGroup := {} }).successors

def systemOf (plans : List TaskGroupPlan) (index : Nat) : String :=
  (plans.getD index { taskGroup := {} }).taskGroup.system

def pendingOf (plans : List TaskGroupPlan) (index : Nat) : Nat :=
  (plans.getD index { taskGroup := {} }).pendingDependencies

/-- How often the plans list `target` as a successor. -/
def incoming (plans : List TaskGroupPlan) (target : Nat) : Nat :=
  (plans.map fun plan => plan.successors.count target).sum

/-- Successor lists and pending counts fit together. -/
structure PlansConsistent (plans : List TaskGroupPlan) : Prop where
  bounded : ∀ index successor, successor ∈ successorsOf plans index → successor < plans.length
  pending : ∀ index, index < plans.length → pendingOf plans index = incoming plans index

section Lookup

theorem successorsOf_eq {plans : List TaskGroupPlan} {index : Nat} (bound : index < plans.length) :
    successorsOf plans index = plans[index].successors := by
  simp [successorsOf, List.getD_eq_getElem?_getD, bound]

theorem lt_length_of_mem_successorsOf {plans : List TaskGroupPlan} {index successor : Nat}
    (member : successor ∈ successorsOf plans index) : index < plans.length := by
  by_contra outside
  have beyond : plans[index]? = none := List.getElem?_eq_none (Nat.le_of_not_lt outside)
  simp [successorsOf, List.getD_eq_getElem?_getD, beyond] at member

end Lookup

section Construction

/-- What holds of the plans after every round of the edge loop. -/
structure ScheduleState.Valid (count : Nat) (state : ScheduleState) : Prop where
  length : state.plans.length = count
  consistent : PlansConsistent state.plans
  edges : ∀ source target,
    target ∈ successorsOf state.plans source ↔ (source, target) ∈ state.seenEdges

theorem incoming_modify (plans : List TaskGroupPlan) (index : Nat) (change : TaskGroupPlan → TaskGroupPlan)
    (target extra : Nat)
    (counted : ∀ plan, (change plan).successors.count target = plan.successors.count target + extra)
    (bound : index < plans.length) :
    incoming (plans.modify index change) target = incoming plans target + extra := by
  unfold incoming
  induction plans generalizing index with
  | nil => simp at bound
  | cons plan plans ih =>
      cases index with
      | zero =>
          simp only [List.modify_zero_cons, List.map_cons, List.sum_cons, counted]
          omega
      | succ index =>
          simp only [List.modify_succ_cons, List.map_cons, List.sum_cons]
          rw [ih index (by simpa using bound)]
          omega

/-- A change that leaves the successors alone leaves every count alone. -/
theorem incoming_modify_same (plans : List TaskGroupPlan) (index : Nat)
    (change : TaskGroupPlan → TaskGroupPlan) (target : Nat)
    (kept : ∀ plan, (change plan).successors = plan.successors) :
    incoming (plans.modify index change) target = incoming plans target := by
  by_cases bound : index < plans.length
  · simpa using incoming_modify plans index change target 0 (by simp [kept]) bound
  · rw [List.modify_eq_self (Nat.le_of_not_lt bound)]

theorem successorsOf_modify (plans : List TaskGroupPlan) (index other : Nat)
    (change : TaskGroupPlan → TaskGroupPlan) (bound : index < plans.length) :
    successorsOf (plans.modify index change) other =
      if other = index then (change plans[index]).successors else successorsOf plans other := by
  by_cases same : other = index
  · subst other
    simp [successorsOf, List.getD_eq_getElem?_getD, bound]
  · have apart : index ≠ other := fun equal => same equal.symm
    simp [successorsOf, List.getD_eq_getElem?_getD, same, apart]

@[simp] theorem linkPlans_length (plans : List TaskGroupPlan) (source target : Nat) :
    (linkPlans plans source target).length = plans.length := by
  simp [linkPlans]

theorem successorsOf_linkPlans {plans : List TaskGroupPlan} {source target : Nat}
    (apart : source ≠ target) (sourceBound : source < plans.length)
    (targetBound : target < plans.length) (other : Nat) :
    successorsOf (linkPlans plans source target) other =
      if other = source then successorsOf plans source ++ [target] else successorsOf plans other := by
  have targetIn : target < (plans.modify source fun plan =>
      { plan with successors := plan.successors ++ [target] }).length := by
    simpa using targetBound
  rw [linkPlans, successorsOf_modify _ _ _ _ targetIn]
  by_cases atTarget : other = target
  · subst other
    rw [if_pos rfl, if_neg apart.symm, ← successorsOf_eq targetIn,
      successorsOf_modify _ _ _ _ sourceBound, if_neg apart.symm]
  · rw [if_neg atTarget, successorsOf_modify _ _ _ _ sourceBound, successorsOf_eq sourceBound]

theorem incoming_linkPlans {plans : List TaskGroupPlan} {source target : Nat}
    (sourceBound : source < plans.length) (index : Nat) :
    incoming (linkPlans plans source target) index =
      incoming plans index + if index = target then 1 else 0 := by
  rw [linkPlans, incoming_modify_same]
  · apply incoming_modify _ _ _ _ _ _ sourceBound
    intro plan
    by_cases hit : index = target
    · simp [hit]
    · have apart : target ≠ index := fun equal => hit equal.symm
      simp [List.count_append, hit, apart]
  · intro plan
    rfl

theorem pendingOf_modify (plans : List TaskGroupPlan) (index other : Nat)
    (change : TaskGroupPlan → TaskGroupPlan) (extra : Nat)
    (counted : ∀ plan, (change plan).pendingDependencies = plan.pendingDependencies + extra)
    (bound : index < plans.length) :
    pendingOf (plans.modify index change) other =
      pendingOf plans other + if other = index then extra else 0 := by
  by_cases same : other = index
  · subst other
    simp [pendingOf, List.getD_eq_getElem?_getD, bound, counted]
  · have apart : index ≠ other := fun equal => same equal.symm
    simp [pendingOf, List.getD_eq_getElem?_getD, same, apart]

theorem pendingOf_linkPlans {plans : List TaskGroupPlan} {source target : Nat}
    (sourceBound : source < plans.length) (targetBound : target < plans.length) (index : Nat) :
    pendingOf (linkPlans plans source target) index =
      pendingOf plans index + if index = target then 1 else 0 := by
  have targetIn : target < (plans.modify source fun plan =>
      { plan with successors := plan.successors ++ [target] }).length := by
    simpa using targetBound
  have unlinked := pendingOf_modify plans source index (fun plan =>
    { plan with successors := plan.successors ++ [target] }) 0 (fun _ => rfl) sourceBound
  rw [linkPlans, pendingOf_modify _ _ _ _ 1 (fun _ => rfl) targetIn, unlinked, ite_self, Nat.add_zero]

theorem linkPlans_consistent {plans : List TaskGroupPlan} (consistent : PlansConsistent plans)
    {source target : Nat} (apart : source ≠ target) (sourceBound : source < plans.length)
    (targetBound : target < plans.length) : PlansConsistent (linkPlans plans source target) where
  bounded := by
    intro index successor member
    rw [successorsOf_linkPlans apart sourceBound targetBound] at member
    rw [linkPlans_length]
    split at member
    · rcases List.mem_append.mp member with old | new
      · exact consistent.bounded _ _ old
      · rw [List.mem_singleton.mp new]
        exact targetBound
    · exact consistent.bounded _ _ member
  pending := by
    intro index bound
    have inPlans : index < plans.length := by simpa using bound
    rw [pendingOf_linkPlans sourceBound targetBound, incoming_linkPlans sourceBound,
      consistent.pending index inPlans]

theorem addScheduleEdge_valid {count : Nat} {state : ScheduleState} (valid : state.Valid count)
    {source target : Nat} (sourceBound : source < count) (targetBound : target < count) :
    (addScheduleEdge state source target).Valid count := by
  have sourceIn : source < state.plans.length := by rw [valid.length]; exact sourceBound
  have targetIn : target < state.plans.length := by rw [valid.length]; exact targetBound
  unfold addScheduleEdge
  split
  · exact valid
  split
  · exact valid
  · rename_i apart fresh
    refine ⟨by simp [valid.length], linkPlans_consistent valid.consistent apart sourceIn targetIn, ?_⟩
    intro other next
    rw [successorsOf_linkPlans apart sourceIn targetIn]
    by_cases atSource : other = source
    · subst other
      simp only [if_true, List.mem_append, List.mem_cons, List.not_mem_nil, or_false,
        Prod.mk.injEq, true_and, valid.edges]
      exact or_comm
    · simp [atSource, valid.edges]

theorem mem_seenEdges_addScheduleEdge {state : ScheduleState} {source target : Nat}
    {edge : Nat × Nat} :
    edge ∈ (addScheduleEdge state source target).seenEdges ↔
      edge ∈ state.seenEdges ∨ (edge = (source, target) ∧ source ≠ target) := by
  unfold addScheduleEdge
  split
  · rename_i equal
    simp [equal]
  split
  · rename_i apart seen
    constructor
    · exact Or.inl
    · rintro (old | ⟨rfl, _⟩)
      · exact old
      · exact seen
  · rename_i apart fresh
    simp only [List.mem_cons, ne_eq, apart, not_false_eq_true, and_true]
    exact or_comm

@[simp] theorem addNixSoftSkipConsumer_successors (plan : TaskGroupPlan) (consumer : String) :
    (addNixSoftSkipConsumer plan consumer).successors = plan.successors := by
  unfold addNixSoftSkipConsumer
  split <;> rfl

@[simp] theorem addNixSoftSkipConsumer_pendingDependencies (plan : TaskGroupPlan)
    (consumer : String) :
    (addNixSoftSkipConsumer plan consumer).pendingDependencies = plan.pendingDependencies := by
  unfold addNixSoftSkipConsumer
  split <;> rfl

theorem modify_addNixSoftSkipConsumer_valid {count : Nat} {state : ScheduleState}
    (valid : state.Valid count) {source : Nat} (bound : source < count) (consumer : String) :
    ScheduleState.Valid count
      { state with
        plans := state.plans.modify source fun plan => addNixSoftSkipConsumer plan consumer } := by
  have sourceIn : source < state.plans.length := by rw [valid.length]; exact bound
  have successors : ∀ other, successorsOf (state.plans.modify source fun plan =>
      addNixSoftSkipConsumer plan consumer) other = successorsOf state.plans other := by
    intro other
    rw [successorsOf_modify _ _ _ _ sourceIn]
    by_cases same : other = source
    · rw [if_pos same, addNixSoftSkipConsumer_successors, same, successorsOf_eq sourceIn]
    · rw [if_neg same]
  refine ⟨by simp [valid.length], ⟨?_, ?_⟩, ?_⟩
  · intro index successor member
    rw [successors] at member
    simpa using valid.consistent.bounded _ _ member
  · intro index indexIn
    rw [pendingOf_modify _ _ _ _ 0 (by simp) sourceIn, incoming_modify_same _ _ _ _ (by simp)]
    simpa using valid.consistent.pending index (by simpa using indexIn)
  · intro other next
    rw [successors]
    exact valid.edges other next

theorem noteNixSoftSkip_valid {count : Nat} {state : ScheduleState} (valid : state.Valid count)
    {source : Nat} (bound : source < count) (resolvedSource resolvedTarget : String) :
    (noteNixSoftSkip state source resolvedSource resolvedTarget).Valid count := by
  unfold noteNixSoftSkip
  split
  · exact modify_addNixSoftSkipConsumer_valid valid bound _
  · exact valid

@[simp] theorem noteNixSoftSkip_seenEdges (state : ScheduleState) (source : Nat)
    (resolvedSource resolvedTarget : String) :
    (noteNixSoftSkip state source resolvedSource resolvedTarget).seenEdges = state.seenEdges := by
  unfold noteNixSoftSkip
  split <;> rfl

/-- The schedule edge one package edge asks for. -/
def EdgeSchedules (platform : Platform) (resolvePluginName : String → String)
    (groupIndex : String → Option Nat) (graph : Graph) (edge : Nat × Nat)
    (source target : Nat) : Prop :=
  source ≠ target ∧ groupIndex (packageIdentityKey (graph.package edge.1)) = some source ∧
    groupIndex (packageIdentityKey (graph.package edge.2)) = some target ∧
    platform.shouldIgnoreScheduleEdge (resolvePluginName (graph.package edge.1).system)
      (resolvePluginName (graph.package edge.2).system) = false

variable (platform : Platform) (resolvePluginName : String → String)
  {groupIndex : String → Option Nat} (graph : Graph)

/-- What one package edge does to the plans. -/
theorem scheduleGraphEdge_spec {count : Nat} {state : ScheduleState} (valid : state.Valid count)
    (indexBound : ∀ key index, groupIndex key = some index → index < count) (edge : Nat × Nat) :
    (scheduleGraphEdge platform resolvePluginName groupIndex graph state edge).Valid count ∧
      ∀ source target,
        (source, target) ∈
            (scheduleGraphEdge platform resolvePluginName groupIndex graph state edge).seenEdges ↔
          (source, target) ∈ state.seenEdges ∨
            EdgeSchedules platform resolvePluginName groupIndex graph edge source target := by
  unfold scheduleGraphEdge
  cases sourceAt : groupIndex (packageIdentityKey (graph.package edge.1)) with
  | none => simp [valid, EdgeSchedules, sourceAt]
  | some sourceGroup =>
      cases targetAt : groupIndex (packageIdentityKey (graph.package edge.2)) with
      | none => simp [valid, EdgeSchedules, targetAt]
      | some targetGroup =>
          have noted := noteNixSoftSkip_valid valid (indexBound _ _ sourceAt)
            (resolvePluginName (graph.package edge.1).system)
            (resolvePluginName (graph.package edge.2).system)
          simp only [sourceAt, targetAt]
          by_cases ignored : platform.shouldIgnoreScheduleEdge
              (resolvePluginName (graph.package edge.1).system)
              (resolvePluginName (graph.package edge.2).system) = true
          · rw [if_pos ignored]
            refine ⟨noted, fun source target => ?_⟩
            simp [EdgeSchedules, ignored]
          · rw [if_neg ignored]
            refine ⟨addScheduleEdge_valid noted (indexBound _ _ sourceAt)
              (indexBound _ _ targetAt), fun source target => ?_⟩
            rw [mem_seenEdges_addScheduleEdge, noteNixSoftSkip_seenEdges]
            have scheduled : platform.shouldIgnoreScheduleEdge
                (resolvePluginName (graph.package edge.1).system)
                (resolvePluginName (graph.package edge.2).system) = false := by
              simpa using ignored
            simp only [EdgeSchedules, sourceAt, targetAt, scheduled, Prod.mk.injEq, Option.some.injEq,
              and_true]
            constructor
            · rintro (old | ⟨⟨rfl, rfl⟩, apart⟩)
              · exact Or.inl old
              · exact Or.inr ⟨apart, rfl, rfl⟩
            · rintro (old | ⟨apart, rfl, rfl⟩)
              · exact Or.inl old
              · exact Or.inr ⟨⟨rfl, rfl⟩, apart⟩

theorem scheduleGraphEdges_spec {count : Nat} {state : ScheduleState} (valid : state.Valid count)
    (indexBound : ∀ key index, groupIndex key = some index → index < count)
    (edges : List (Nat × Nat)) :
    (edges.foldl (scheduleGraphEdge platform resolvePluginName groupIndex graph) state).Valid count ∧
      ∀ source target,
        (source, target) ∈
            (edges.foldl (scheduleGraphEdge platform resolvePluginName groupIndex graph)
              state).seenEdges ↔
          (source, target) ∈ state.seenEdges ∨ ∃ edge ∈ edges,
            EdgeSchedules platform resolvePluginName groupIndex graph edge source target := by
  induction edges generalizing state with
  | nil => simp [valid]
  | cons edge edges ih =>
      obtain ⟨nextValid, nextEdges⟩ :=
        scheduleGraphEdge_spec platform resolvePluginName graph valid indexBound edge
      obtain ⟨finalValid, finalEdges⟩ := ih nextValid
      refine ⟨finalValid, fun source target => ?_⟩
      rw [List.foldl_cons, finalEdges, nextEdges]
      simp only [List.mem_cons, exists_eq_or_imp]
      rw [or_assoc]

/-- The barrier adds every pair of a group before it and a group behind it. -/
theorem addScheduleEdges_spec {count : Nat} (pairs : List (Nat × Nat)) {state : ScheduleState}
    (valid : state.Valid count) (bounds : ∀ pair ∈ pairs, pair.1 < count ∧ pair.2 < count) :
    (pairs.foldl (fun state pair => addScheduleEdge state pair.1 pair.2) state).Valid count ∧
      ∀ edge, edge ∈ (pairs.foldl (fun state pair => addScheduleEdge state pair.1 pair.2)
          state).seenEdges ↔
        edge ∈ state.seenEdges ∨ (edge ∈ pairs ∧ edge.1 ≠ edge.2) := by
  induction pairs generalizing state with
  | nil => simp [valid]
  | cons pair pairs ih =>
      have pairBounds := bounds pair List.mem_cons_self
      obtain ⟨finalValid, finalEdges⟩ := ih (addScheduleEdge_valid valid pairBounds.1 pairBounds.2)
        fun other member => bounds other (List.mem_cons_of_mem _ member)
      refine ⟨finalValid, fun edge => ?_⟩
      rw [List.foldl_cons, finalEdges, mem_seenEdges_addScheduleEdge, List.mem_cons]
      constructor
      · rintro ((old | ⟨rfl, apart⟩) | ⟨later, apart⟩)
        · exact Or.inl old
        · exact Or.inr ⟨Or.inl rfl, apart⟩
        · exact Or.inr ⟨Or.inr later, apart⟩
      · rintro (old | ⟨rfl | later, apart⟩)
        · exact Or.inl (Or.inl old)
        · exact Or.inl (Or.inr ⟨rfl, apart⟩)
        · exact Or.inr ⟨later, apart⟩

theorem addBarrier_eq (taskGroups : List TaskGroup) (state : ScheduleState) :
    addBarrier resolvePluginName taskGroups state =
      ((barrierGroups resolvePluginName taskGroups true).flatMap fun nixGroup =>
        (barrierGroups resolvePluginName taskGroups false).map fun nonNixGroup =>
          (nonNixGroup, nixGroup)).foldl
        (fun state pair => addScheduleEdge state pair.1 pair.2) state := by
  simp only [addBarrier, List.foldl_flatMap, List.foldl_map]

theorem lt_length_of_mem_barrierGroups {taskGroups : List TaskGroup} {nix : Bool} {index : Nat}
    (member : index ∈ barrierGroups resolvePluginName taskGroups nix) :
    index < taskGroups.length :=
  List.mem_range.mp (List.mem_of_mem_filter member)

end Construction

section GroupIndex

/-- The group at `index` holds a package filed under `key`. -/
def HoldsKey (taskGroups : List TaskGroup) (index : Nat) (key : String) : Prop :=
  ∃ package ∈ (taskGroups.getD index {}).packages, packageIdentityKey package = key

theorem HoldsKey.lt_length {taskGroups : List TaskGroup} {index : Nat} {key : String}
    (holds : HoldsKey taskGroups index key) : index < taskGroups.length := by
  obtain ⟨package, member, _⟩ := holds
  by_contra outside
  have beyond : taskGroups[index]? = none := List.getElem?_eq_none (Nat.le_of_not_lt outside)
  simp [List.getD_eq_getElem?_getD, beyond] at member

theorem foldl_update_some (packages : List Package) (index : Nat) (map : String → Option Nat)
    (key : String) :
    packages.foldl (fun map package =>
        Function.update map (packageIdentityKey package) (some index)) map key =
      if key ∈ packages.map packageIdentityKey then some index else map key := by
  induction packages generalizing map with
  | nil => simp
  | cons package packages ih =>
      rw [List.foldl_cons, ih]
      by_cases later : key ∈ packages.map packageIdentityKey
      · rw [if_pos later, if_pos (by simp only [List.map_cons, List.mem_cons, later, or_true])]
      · rw [if_neg later]
        by_cases here : key = packageIdentityKey package
        · subst key
          simp
        · rw [if_neg (by simp only [List.map_cons, List.mem_cons, here, later, or_self, not_false_eq_true]),
            Function.update_of_ne here]

theorem packageToGroupIndex_concat (taskGroups : List TaskGroup) (group : TaskGroup) (key : String) :
    packageToGroupIndex (taskGroups ++ [group]) key =
      if key ∈ group.packages.map packageIdentityKey then some taskGroups.length
      else packageToGroupIndex taskGroups key := by
  simp only [packageToGroupIndex, List.zipIdx_append, List.foldl_append, List.zipIdx_cons,
    List.zipIdx_nil, List.foldl_cons, List.foldl_nil, Nat.zero_add]
  exact foldl_update_some _ _ _ _

theorem holdsKey_concat {taskGroups : List TaskGroup} {group : TaskGroup} {index : Nat} {key : String} :
    HoldsKey (taskGroups ++ [group]) index key ↔
      (index = taskGroups.length ∧ key ∈ group.packages.map packageIdentityKey) ∨
        HoldsKey taskGroups index key := by
  rcases Nat.lt_trichotomy index taskGroups.length with before | rfl | after
  · have apart : index ≠ taskGroups.length := Nat.ne_of_lt before
    simp [HoldsKey, List.getD_eq_getElem?_getD, List.getElem?_append_left before, apart]
  · simp [HoldsKey, List.getD_eq_getElem?_getD]
  · have apart : index ≠ taskGroups.length := Nat.ne_of_gt after
    have outside : ¬ HoldsKey taskGroups index key :=
      fun holds => absurd holds.lt_length (by omega)
    have beyond : ¬ HoldsKey (taskGroups ++ [group]) index key := by
      intro holds
      have bound := holds.lt_length
      rw [List.length_append, List.length_singleton] at bound
      omega
    simp [apart, outside, beyond]

/-- The map finds the last group that holds a package with the key. -/
theorem packageToGroupIndex_eq_some_iff {taskGroups : List TaskGroup} {key : String} {index : Nat} :
    packageToGroupIndex taskGroups key = some index ↔
      HoldsKey taskGroups index key ∧ ∀ later, index < later → ¬ HoldsKey taskGroups later key := by
  induction taskGroups using List.reverseRecOn generalizing index with
  | nil => simp [packageToGroupIndex, HoldsKey]
  | append_singleton taskGroups group ih =>
      rw [packageToGroupIndex_concat]
      by_cases present : key ∈ group.packages.map packageIdentityKey
      · rw [if_pos present, Option.some.injEq]
        constructor
        · rintro rfl
          refine ⟨holdsKey_concat.2 (Or.inl ⟨rfl, present⟩), fun later after holds => ?_⟩
          have bound := holds.lt_length
          rw [List.length_append, List.length_singleton] at bound
          omega
        · rintro ⟨holds, last⟩
          have bound := holds.lt_length
          rw [List.length_append, List.length_singleton] at bound
          by_contra apart
          exact last taskGroups.length (by omega) (holdsKey_concat.2 (Or.inl ⟨rfl, present⟩))
      · rw [if_neg present, ih]
        simp only [holdsKey_concat, present, and_false, false_or]

theorem lt_length_of_packageToGroupIndex {taskGroups : List TaskGroup} {key : String} {index : Nat}
    (found : packageToGroupIndex taskGroups key = some index) : index < taskGroups.length :=
  (packageToGroupIndex_eq_some_iff.1 found).1.lt_length

end GroupIndex

section Plans

variable (platform : Platform) (resolvePluginName : String → String) (taskGroups : List TaskGroup)
  (graph : Graph)

/-- The schedule edges `createPlans` draws, read off its two loops. -/
def ScheduleEdge (source target : Nat) : Prop :=
  (∃ edge ∈ graph.edges, EdgeSchedules platform resolvePluginName
      (packageToGroupIndex taskGroups) graph edge source target) ∨
    (platform.needsNonNixBeforeNixBarrier = true ∧
      source ∈ barrierGroups resolvePluginName taskGroups false ∧
      target ∈ barrierGroups resolvePluginName taskGroups true)

theorem barrierGroups_disjoint {source target : Nat}
    (before : source ∈ barrierGroups resolvePluginName taskGroups false)
    (behind : target ∈ barrierGroups resolvePluginName taskGroups true) : source ≠ target := by
  rintro rfl
  have first := (List.mem_filter.mp before).2
  have second := (List.mem_filter.mp behind).2
  simp only [Bool.and_eq_true, beq_iff_eq] at first second
  rw [first.2] at second
  exact absurd second.2 (by decide)

theorem initialPlans_valid :
    ScheduleState.Valid taskGroups.length
      { plans := taskGroups.map fun taskGroup => ({ taskGroup := taskGroup } : TaskGroupPlan) } := by
  have noSuccessors : ∀ index, successorsOf
      (taskGroups.map fun taskGroup => ({ taskGroup := taskGroup } : TaskGroupPlan)) index = [] := by
    intro index
    cases found : taskGroups[index]? <;>
      simp [successorsOf, List.getD_eq_getElem?_getD, found]
  refine ⟨by simp, ⟨?_, ?_⟩, ?_⟩
  · intro index successor member
    simp [noSuccessors] at member
  · intro index bound
    have inGroups : index < taskGroups.length := by simpa using bound
    simp [pendingOf, incoming, List.getD_eq_getElem?_getD, inGroups, Function.comp_def]
  · simp [noSuccessors]

/-- Everything later proofs need of `createPlans` with a graph. -/
theorem createPlans_spec :
    (createPlans platform resolvePluginName taskGroups (some graph)).length = taskGroups.length ∧
      PlansConsistent (createPlans platform resolvePluginName taskGroups (some graph)) ∧
      ∀ source target,
        target ∈ successorsOf (createPlans platform resolvePluginName taskGroups (some graph)) source ↔
          ScheduleEdge platform resolvePluginName taskGroups graph source target := by
  obtain ⟨valid, edges⟩ := scheduleGraphEdges_spec platform resolvePluginName graph
    (initialPlans_valid taskGroups)
    (fun key index found => lt_length_of_packageToGroupIndex found) graph.edges
  simp only [createPlans]
  by_cases barrier : platform.needsNonNixBeforeNixBarrier = true
  · rw [if_pos barrier, addBarrier_eq]
    obtain ⟨barredValid, barredEdges⟩ := addScheduleEdges_spec
      ((barrierGroups resolvePluginName taskGroups true).flatMap fun nixGroup =>
        (barrierGroups resolvePluginName taskGroups false).map fun nonNixGroup =>
          (nonNixGroup, nixGroup)) valid (by
      rintro ⟨source, target⟩ member
      simp only [List.mem_flatMap, List.mem_map, Prod.mk.injEq] at member
      obtain ⟨nixGroup, behind, nonNixGroup, before, rfl, rfl⟩ := member
      exact ⟨lt_length_of_mem_barrierGroups _ before, lt_length_of_mem_barrierGroups _ behind⟩)
    refine ⟨barredValid.length, barredValid.consistent, fun source target => ?_⟩
    rw [barredValid.edges, barredEdges, edges]
    simp only [List.not_mem_nil, false_or, ScheduleEdge, barrier, true_and, List.mem_flatMap,
      List.mem_map, Prod.mk.injEq]
    constructor
    · rintro (drawn | ⟨⟨nixGroup, behind, nonNixGroup, before, rfl, rfl⟩, _⟩)
      · exact Or.inl drawn
      · exact Or.inr ⟨before, behind⟩
    · rintro (drawn | ⟨before, behind⟩)
      · exact Or.inl drawn
      · exact Or.inr ⟨⟨target, behind, source, before, rfl, rfl⟩,
          barrierGroups_disjoint _ _ before behind⟩
  · rw [if_neg barrier]
    refine ⟨valid.length, valid.consistent, fun source target => ?_⟩
    rw [valid.edges, edges]
    simp [ScheduleEdge, barrier]

end Plans

section Tasks

/-- A group without the consumers that the plans note on it. -/
def TaskGroup.task (group : TaskGroup) : TaskGroup := { group with nixSoftSkipConsumers := [] }

variable (platform : Platform) (resolvePluginName : String → String)

def planTasks (plans : List TaskGroupPlan) : List TaskGroup := plans.map fun plan => plan.taskGroup.task

theorem planTasks_modify (plans : List TaskGroupPlan) (index : Nat) (change : TaskGroupPlan → TaskGroupPlan)
    (same : ∀ plan, (change plan).taskGroup.task = plan.taskGroup.task) :
    planTasks (plans.modify index change) = planTasks plans := by
  apply List.ext_getElem
  · simp [planTasks]
  · intro position _ _
    simp only [planTasks, List.getElem_map, List.getElem_modify]
    split
    · exact same _
    · rfl

theorem planTasks_addScheduleEdge (state : ScheduleState) (source target : Nat) :
    planTasks (addScheduleEdge state source target).plans = planTasks state.plans := by
  unfold addScheduleEdge
  split
  · rfl
  split
  · rfl
  · simp only [linkPlans]
    rw [planTasks_modify, planTasks_modify]
    · intro plan
      rfl
    · intro plan
      rfl

theorem planTasks_noteNixSoftSkip (state : ScheduleState) (source : Nat)
    (resolvedSource resolvedTarget : String) :
    planTasks (noteNixSoftSkip state source resolvedSource resolvedTarget).plans =
      planTasks state.plans := by
  unfold noteNixSoftSkip
  split
  · refine planTasks_modify _ _ _ fun plan => ?_
    unfold addNixSoftSkipConsumer
    split <;> rfl
  · rfl

theorem planTasks_scheduleGraphEdge (groupIndex : String → Option Nat) (graph : Graph)
    (state : ScheduleState) (edge : Nat × Nat) :
    planTasks (scheduleGraphEdge platform resolvePluginName groupIndex graph state edge).plans =
      planTasks state.plans := by
  simp only [scheduleGraphEdge]
  split
  · split
    · exact planTasks_noteNixSoftSkip _ _ _ _
    · rw [planTasks_addScheduleEdge]
      exact planTasks_noteNixSoftSkip _ _ _ _
  · rfl

/-- Folding over a step that keeps the tasks keeps them. -/
theorem planTasks_foldl {α : Type} {step : ScheduleState → α → ScheduleState}
    (same : ∀ state entry, planTasks (step state entry).plans = planTasks state.plans)
    (entries : List α) (state : ScheduleState) :
    planTasks (entries.foldl step state).plans = planTasks state.plans := by
  induction entries generalizing state with
  | nil => rfl
  | cons entry entries ih => rw [List.foldl_cons, ih, same]

/-- Planning only adds edges and consumers: the tasks are those of the groups. -/
theorem createPlans_tasks (taskGroups : List TaskGroup) (graph : Option Graph) :
    planTasks (createPlans platform resolvePluginName taskGroups graph) =
      taskGroups.map TaskGroup.task := by
  have initial : planTasks (taskGroups.map fun taskGroup => ({ taskGroup := taskGroup } : TaskGroupPlan)) =
      taskGroups.map TaskGroup.task := by
    simp [planTasks, Function.comp_def]
  cases graph with
  | none => exact initial
  | some graph =>
      have scheduled := planTasks_foldl
        (planTasks_scheduleGraphEdge platform resolvePluginName (packageToGroupIndex taskGroups) graph)
        graph.edges
        { plans := taskGroups.map fun taskGroup => { taskGroup := taskGroup } }
      simp only [createPlans]
      split
      · unfold addBarrier
        rw [planTasks_foldl fun state nixGroup => planTasks_foldl
          (fun state nonNixGroup => planTasks_addScheduleEdge state nonNixGroup nixGroup) _ state]
        rw [scheduled, initial]
      · rw [scheduled, initial]

end Tasks

end ReqPack.Scheduler
