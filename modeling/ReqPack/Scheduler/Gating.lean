import Mathlib.Data.List.GetD
import ReqPack.Scheduler.Agreement

/-! # From package edges to schedule edges

`createPlans` looks packages up by system, name and version, and a later group
replaces an earlier one.  The two conditions below say for which graphs and
groups the schedule edges still are what the package edges ask for.
-/

namespace ReqPack.Scheduler

open ReqPack.Data ReqPack.Core

/-- The last group that holds a package with a key; the one the lookup finds. -/
def LastHolding (taskGroups : List TaskGroup) (index : Nat) (key : String) : Prop :=
  HoldsKey taskGroups index key ∧ ∀ later, index < later → ¬ HoldsKey taskGroups later key

/-- What is left of the groups after filtering: groups may be dropped, and
packages of a kept group may be dropped. -/
def FilteredFrom (taskGroups whole : List TaskGroup) : Prop :=
  List.SublistForall₂ (fun kept group => kept.packages.Sublist group.packages) taskGroups whole

/-- No two vertices share system, name and version. -/
def DistinctKeys (graph : Graph) : Prop := (graph.packages.map packageIdentityKey).Nodup

/-- The groups the lookup finds for the ends of an edge never stand in the wrong
order, and on a build with the Nix barrier its two sides are in order. -/
def KeysForward (platform : Platform) (resolvePluginName : String → String)
    (taskGroups : List TaskGroup) (graph : Graph) : Prop :=
  (∀ edge ∈ graph.edges,
    platform.shouldIgnoreScheduleEdge (resolvePluginName (graph.package edge.1).system)
      (resolvePluginName (graph.package edge.2).system) = false →
    ∀ source target, LastHolding taskGroups source (packageIdentityKey (graph.package edge.1)) →
      LastHolding taskGroups target (packageIdentityKey (graph.package edge.2)) →
      source ≤ target) ∧
  (platform.needsNonNixBeforeNixBarrier = true →
    ∀ source ∈ barrierGroups resolvePluginName taskGroups false,
      ∀ target ∈ barrierGroups resolvePluginName taskGroups true, source < target)

section Direction

variable {platform : Platform} {resolvePluginName : String → String} {taskGroups : List TaskGroup}
  {graph : Graph}

theorem edgeSchedules_iff {edge : Nat × Nat} {source target : Nat} :
    EdgeSchedules platform resolvePluginName (packageToGroupIndex taskGroups) graph edge source target ↔
      source ≠ target ∧ LastHolding taskGroups source (packageIdentityKey (graph.package edge.1)) ∧
        LastHolding taskGroups target (packageIdentityKey (graph.package edge.2)) ∧
        platform.shouldIgnoreScheduleEdge (resolvePluginName (graph.package edge.1).system)
          (resolvePluginName (graph.package edge.2).system) = false := by
  simp only [EdgeSchedules, packageToGroupIndex_eq_some_iff, LastHolding]

theorem forward_iff_keysForward :
    Forward (createPlans platform resolvePluginName taskGroups (some graph)) ↔
      KeysForward platform resolvePluginName taskGroups graph := by
  obtain ⟨_, _, edges⟩ := createPlans_spec platform resolvePluginName taskGroups graph
  simp only [Forward, edges, ScheduleEdge, edgeSchedules_iff]
  constructor
  · intro forward
    refine ⟨fun edge member scheduled source target first second => ?_,
      fun barrier source before target behind =>
        forward source target (Or.inr ⟨barrier, before, behind⟩)⟩
    by_cases same : source = target
    · exact Nat.le_of_eq same
    · exact Nat.le_of_lt (forward source target
        (Or.inl ⟨edge, member, same, first, second, scheduled⟩))
  · rintro ⟨ordered, barred⟩ source target (⟨edge, member, apart, first, second, scheduled⟩ |
      ⟨barrier, before, behind⟩)
    · have bound := ordered edge member scheduled source target first second
      omega
    · exact barred barrier source before target behind

end Direction

section Distinct

variable {graph : Graph} {sorted : List Nat} {taskGroups : List TaskGroup}

theorem DistinctKeys.eq_of_key (distinct : DistinctKeys graph) {left right : Nat}
    (leftBound : left < graph.packages.length) (rightBound : right < graph.packages.length)
    (same : packageIdentityKey (graph.package left) = packageIdentityKey (graph.package right)) :
    left = right := by
  rw [graph.package_eq_getElem leftBound, graph.package_eq_getElem rightBound] at same
  have leftIn : left < (graph.packages.map packageIdentityKey).length := by simpa using leftBound
  have rightIn : right < (graph.packages.map packageIdentityKey).length := by simpa using rightBound
  have sameKey : (graph.packages.map packageIdentityKey)[left] =
      (graph.packages.map packageIdentityKey)[right] := by simpa using same
  exact (List.Nodup.getElem_inj_iff distinct).mp sameKey

/-- In execution order no package stands in front of one it depends on. -/
theorem SortedBy.pairwise_packages (ordered : SortedBy graph sorted) (distinct : DistinctKeys graph) :
    ((orderedVertices .posix graph sorted).map graph.package).Pairwise fun first second =>
      ∀ edge ∈ graph.edges, packageIdentityKey second = packageIdentityKey (graph.package edge.1) →
        packageIdentityKey first ≠ packageIdentityKey (graph.package edge.2) := by
  rw [List.pairwise_map, List.pairwise_iff_getElem]
  intro i j iBound jBound before edge member sourceKey targetKey
  have bounds := graph.bounded edge member
  have inside : ∀ position (bound : position < (orderedVertices .posix graph sorted).length),
      (orderedVertices .posix graph sorted)[position] < graph.packages.length :=
    fun position bound => ordered.mem_orderedVertices.1 (List.getElem_mem bound)
  have source := distinct.eq_of_key (inside j jBound) bounds.1 sourceKey
  have target := distinct.eq_of_key (inside i iBound) bounds.2 targetKey
  have forward : (orderedVertices .posix graph sorted).idxOf edge.1 <
      (orderedVertices .posix graph sorted).idxOf edge.2 := ordered.orderedVertices_forward member
  rw [← source, ← target, ordered.nodup_orderedVertices.idxOf_getElem,
    ordered.nodup_orderedVertices.idxOf_getElem] at forward
  omega

theorem FilteredFrom.packages {whole : List TaskGroup} (filtered : FilteredFrom taskGroups whole) :
    (taskGroups.flatMap (·.packages)).Sublist (whole.flatMap (·.packages)) := by
  induction filtered with
  | nil => exact List.nil_sublist _
  | cons kept _ ih => exact kept.append ih
  | cons_right _ ih => exact ih.trans (List.sublist_append_right _ _)

theorem keysForward_of_distinctKeys {resolvePluginName : String → String}
    (ordered : SortedBy graph sorted) (distinct : DistinctKeys graph)
    (filtered : FilteredFrom taskGroups (createFromGraph .posix graph sorted)) :
    KeysForward .posix resolvePluginName taskGroups graph := by
  refine ⟨fun edge member _ source target first second => ?_, fun barrier => by
    simp [Platform.needsNonNixBeforeNixBarrier] at barrier⟩
  by_contra backward
  have packages := filtered.packages
  rw [createFromGraph_posix_packages] at packages
  have pairwise := (List.pairwise_flatMap.mp ((ordered.pairwise_packages distinct).sublist packages)).2
  obtain ⟨sourcePackage, sourceMember, sourceKey⟩ := first.1
  obtain ⟨targetPackage, targetMember, targetKey⟩ := second.1
  have sourceBound := first.1.lt_length
  have targetBound := second.1.lt_length
  rw [List.getD_eq_getElem _ _ sourceBound] at sourceMember
  rw [List.getD_eq_getElem _ _ targetBound] at targetMember
  exact List.pairwise_iff_getElem.mp pairwise target source targetBound sourceBound (by omega)
    targetPackage targetMember sourcePackage sourceMember edge member sourceKey targetKey

end Distinct

section Agreement

variable {platform : Platform} (resolvePluginName : String → String) {graph : Graph}
  {sorted : List Nat} {taskGroups : List TaskGroup}

/-- Both paths of the scheduler agree on the groups of an acyclic graph exactly
when the groups found for the ends of the package edges are in order.  On a build
without the Nix reordering this holds of every graph whose packages differ in
system, name or version. -/
theorem pathsAgree_iff_keysForward (ordered : SortedBy graph sorted)
    (filtered : FilteredFrom taskGroups (createFromGraph platform graph sorted)) :
    (PathsAgree (createPlans platform resolvePluginName taskGroups (some graph)) ↔
      KeysForward platform resolvePluginName taskGroups graph) ∧
    (platform = .posix → DistinctKeys graph →
      KeysForward platform resolvePluginName taskGroups graph) := by
  have consistent := (createPlans_spec platform resolvePluginName taskGroups graph).2.1
  refine ⟨?_, ?_⟩
  · rw [← forward_iff_keysForward]
    exact ⟨forward_of_pathsAgree consistent, pathsAgree_of_forward consistent⟩
  · rintro rfl distinct
    exact keysForward_of_distinctKeys ordered distinct filtered

/-- Python is installed for numpy and removed after it: the first and the last
package share system, name and version. -/
def reinstallGraph : Graph where
  packages := [{ action := .install, system := "apt", name := "python" },
    { action := .install, system := "pip", name := "numpy" },
    { action := .remove, system := "apt", name := "python" }]
  edges := [(0, 1), (1, 2)]
  bounded := by decide

def reinstallGroups : List TaskGroup := createFromGraph .posix reinstallGraph [2, 1, 0]

def reinstallPlans : List TaskGroupPlan := createPlans .posix id reinstallGroups (some reinstallGraph)

theorem reinstallGraph_sorted : SortedBy reinstallGraph [2, 1, 0] := ⟨by decide, by decide⟩

theorem filteredFrom_self (groups : List TaskGroup) : FilteredFrom groups groups := by
  induction groups with
  | nil => exact .nil
  | cons group groups ih => exact .cons (List.Sublist.refl _) ih

/-- The edge from python to numpy is filed as an edge from the removal of python
to numpy, so numpy and the removal wait for each other. -/
theorem reinstall_paths_disagree :
    SortedBy reinstallGraph [2, 1, 0] ∧ ¬ PathsAgree reinstallPlans := by
  refine ⟨reinstallGraph_sorted, fun agree => ?_⟩
  have consistent : PlansConsistent reinstallPlans := (createPlans_spec .posix id _ reinstallGraph).2.1
  have backward : 1 ∈ successorsOf reinstallPlans 2 := by decide
  exact absurd (forward_of_pathsAgree consistent agree 2 1 backward) (by decide)

theorem pathsAgree_iff_keysForward_chain : PathsAgree chainPlans := by
  have ordered : SortedBy chainGraph [1, 0] := ⟨by decide, by decide⟩
  have result := pathsAgree_iff_keysForward id ordered
    (filteredFrom_self (createFromGraph .posix chainGraph [1, 0]))
  exact result.1.mpr (result.2 rfl (by unfold DistinctKeys; decide))

end Agreement

section Gates

/-- The group at `index` holds the package of a vertex. -/
def HoldsVertex (taskGroups : List TaskGroup) (graph : Graph) (index vertex : Nat) : Prop :=
  graph.package vertex ∈ (taskGroups.getD index {}).packages

/-- A history some run of the plans can have, in any state of the worker loop or
after the single pass. -/
def HistoryOf {World : Type} (plans : List TaskGroupPlan) (stopOnFirstFailure : Bool)
    (executeTaskGroup : TaskGroup → World → List TransactionRecord × World)
    (log : List Observation) : Prop :=
  (∃ workerCount world events final,
    runWorkers plans stopOnFirstFailure executeTaskGroup workerCount world events = some final ∧
      log = final.log) ∨
  ∃ world, log = (runSequential plans stopOnFirstFailure executeTaskGroup world).log

/-- For every package edge between different groups there is a schedule edge
between the groups that hold its ends, and in every run the second group starts
only after the first one completed without a failed record. -/
def DependenciesGate (resolvePluginName : String → String) (graph : Graph)
    (taskGroups : List TaskGroup) : Prop :=
  ∀ edge ∈ graph.edges, ∀ source target, HoldsVertex taskGroups graph source edge.1 →
    HoldsVertex taskGroups graph target edge.2 → source ≠ target →
    target ∈ successorsOf (createPlans .posix resolvePluginName taskGroups (some graph)) source ∧
    ∀ (World : Type) (stopOnFirstFailure : Bool)
      (executeTaskGroup : TaskGroup → World → List TransactionRecord × World) (log : List Observation),
      HistoryOf (createPlans .posix resolvePluginName taskGroups (some graph)) stopOnFirstFailure
        executeTaskGroup log →
      ∀ before after, log = before ++ .started target :: after →
        source ∈ completedIndices before ∧ ¬ ReportedFailure before source

/-- For every package edge between different groups, some package edge is filed
under just these two groups: each is the last one that holds the key of its end. -/
def KeysResolve (graph : Graph) (taskGroups : List TaskGroup) : Prop :=
  ∀ edge ∈ graph.edges, ∀ source target, HoldsVertex taskGroups graph source edge.1 →
    HoldsVertex taskGroups graph target edge.2 → source ≠ target →
    ∃ filed ∈ graph.edges, LastHolding taskGroups source (packageIdentityKey (graph.package filed.1)) ∧
      LastHolding taskGroups target (packageIdentityKey (graph.package filed.2))

theorem HistoryOf.gated {World : Type} {plans : List TaskGroupPlan} {stopOnFirstFailure : Bool}
    {executeTaskGroup : TaskGroup → World → List TransactionRecord × World} {log : List Observation}
    (consistent : PlansConsistent plans)
    (history : HistoryOf plans stopOnFirstFailure executeTaskGroup log) : Gated plans log := by
  rcases history with ⟨workerCount, world, events, final, run, rfl⟩ | ⟨world, rfl⟩
  · exact (runWorkers_invariant consistent run).bookkeeping.gated
  · exact (runSequential_invariant consistent stopOnFirstFailure executeTaskGroup world).gated

variable {resolvePluginName : String → String} {graph : Graph} {sorted : List Nat}
  {taskGroups : List TaskGroup}

theorem dependenciesGate_iff_keysResolve :
    DependenciesGate resolvePluginName graph taskGroups ↔ KeysResolve graph taskGroups := by
  obtain ⟨_, consistent, edges⟩ := createPlans_spec .posix resolvePluginName taskGroups graph
  have scheduled : ∀ source target, source ≠ target →
      (target ∈ successorsOf (createPlans .posix resolvePluginName taskGroups (some graph)) source ↔
        ∃ filed ∈ graph.edges,
          LastHolding taskGroups source (packageIdentityKey (graph.package filed.1)) ∧
            LastHolding taskGroups target (packageIdentityKey (graph.package filed.2))) := by
    intro source target apart
    simp [edges, ScheduleEdge, edgeSchedules_iff, Platform.needsNonNixBeforeNixBarrier,
      Platform.shouldIgnoreScheduleEdge, apart]
  constructor
  · intro gate edge member source target first second apart
    exact (scheduled source target apart).mp (gate edge member source target first second apart).1
  · intro resolve edge member source target first second apart
    have filed := (scheduled source target apart).mpr
      (resolve edge member source target first second apart)
    refine ⟨filed, fun World stopOnFirstFailure executeTaskGroup log history before after split => ?_⟩
    exact history.gated consistent before target after split source filed

theorem map_package_range (graph : Graph) :
    (List.range graph.packages.length).map graph.package = graph.packages := by
  apply List.ext_getElem
  · simp
  · intro vertex bound _
    have inside : vertex < graph.packages.length := by simpa using bound
    simp [graph.package_eq_getElem inside]

theorem SortedBy.packages_perm (ordered : SortedBy graph sorted) :
    ((createFromGraph .posix graph sorted).flatMap (·.packages)).Perm graph.packages := by
  rw [createFromGraph_posix_packages]
  have vertices := (orderedVertices_perm .posix graph sorted).trans ordered.perm
  simpa only [map_package_range] using vertices.map graph.package

/-- A relation that keeps the packages of the graph apart keeps the groups apart. -/
theorem eq_of_holds (related : Package → Package → Prop)
    (symmetric : ∀ {x y}, related x y → related y x)
    (apart : (taskGroups.flatMap (·.packages)).Pairwise fun left right => ¬ related left right)
    {first second : Nat} {left right : Package}
    (leftMember : left ∈ (taskGroups.getD first {}).packages)
    (rightMember : right ∈ (taskGroups.getD second {}).packages) (same : related left right) :
    first = second := by
  have bound : ∀ index (package : Package), package ∈ (taskGroups.getD index {}).packages →
      index < taskGroups.length := fun index package member =>
    HoldsKey.lt_length ⟨package, member, rfl⟩
  have firstBound := bound first left leftMember
  have secondBound := bound second right rightMember
  rw [List.getD_eq_getElem _ _ firstBound] at leftMember
  rw [List.getD_eq_getElem _ _ secondBound] at rightMember
  have pairwise := List.pairwise_iff_getElem.mp (List.pairwise_flatMap.mp apart).2
  rcases Nat.lt_trichotomy first second with before | equal | after
  · exact absurd same (pairwise first second firstBound secondBound before left leftMember
      right rightMember)
  · exact equal
  · exact absurd (symmetric same) (pairwise second first secondBound firstBound after right
      rightMember left leftMember)

theorem SortedBy.existsUnique_holdsVertex (ordered : SortedBy graph sorted)
    (distinct : graph.DistinctPackages) {vertex : Nat} (bound : vertex < graph.packages.length) :
    ∃! index, HoldsVertex (createFromGraph .posix graph sorted) graph index vertex := by
  have member : graph.package vertex ∈
      (createFromGraph .posix graph sorted).flatMap (·.packages) :=
    ordered.packages_perm.mem_iff.2 (graph.package_mem bound)
  obtain ⟨group, groupMember, inGroup⟩ := List.mem_flatMap.mp member
  obtain ⟨index, indexBound, rfl⟩ := List.getElem_of_mem groupMember
  refine ⟨index, ?_, fun other holds => ?_⟩
  · simpa only [HoldsVertex, List.getD_eq_getElem _ _ indexBound] using inGroup
  · have apart : ((createFromGraph .posix graph sorted).flatMap (·.packages)).Pairwise
        fun left right => ¬ plannerSamePackage left right = true := by
      refine (ordered.packages_perm.pairwise_iff fun same => ?_).mpr
        (distinct.imp fun different => by simp [different])
      exact fun flipped => same (plannerSamePackage_symm flipped)
    refine eq_of_holds (fun left right => plannerSamePackage left right = true)
      plannerSamePackage_symm apart holds ?_ (plannerSamePackage_refl _)
    simpa only [List.getD_eq_getElem _ _ indexBound] using inGroup

theorem keysResolve_of_distinctKeys (ordered : SortedBy graph sorted) (distinct : DistinctKeys graph) :
    KeysResolve graph (createFromGraph .posix graph sorted) := by
  have apart : ((createFromGraph .posix graph sorted).flatMap (·.packages)).Pairwise
      fun left right => ¬ packageIdentityKey left = packageIdentityKey right := by
    refine (ordered.packages_perm.pairwise_iff fun different => ?_).mpr (List.pairwise_map.mp distinct)
    exact fun flipped => different flipped.symm
  have last : ∀ index vertex, HoldsVertex (createFromGraph .posix graph sorted) graph index vertex →
      LastHolding (createFromGraph .posix graph sorted) index
        (packageIdentityKey (graph.package vertex)) := by
    intro index vertex holds
    refine ⟨⟨graph.package vertex, holds, rfl⟩, fun later after ⟨package, member, sameKey⟩ => ?_⟩
    have equal := eq_of_holds (fun left right => packageIdentityKey left = packageIdentityKey right)
      Eq.symm apart holds member sameKey.symm
    omega
  intro edge member source target first second _
  exact ⟨edge, member, last source edge.1 first, last target edge.2 second⟩

/-- Dependencies gate the groups that hold them exactly when the lookup by system,
name and version finds these groups; it does when no two packages share all three. -/
theorem createPlans_gates_iff (resolvePluginName : String → String) (ordered : SortedBy graph sorted)
    (distinct : graph.DistinctPackages) :
    (∀ vertex, vertex < graph.packages.length →
      ∃! index, HoldsVertex (createFromGraph .posix graph sorted) graph index vertex) ∧
    (DependenciesGate resolvePluginName graph (createFromGraph .posix graph sorted) ↔
      KeysResolve graph (createFromGraph .posix graph sorted)) ∧
    (DistinctKeys graph → KeysResolve graph (createFromGraph .posix graph sorted)) :=
  ⟨fun _ bound => ordered.existsUnique_holdsVertex distinct bound, dependenciesGate_iff_keysResolve,
    keysResolve_of_distinctKeys ordered⟩

theorem createPlans_gates_iff_chain :
    DependenciesGate id chainGraph (createFromGraph .posix chainGraph [1, 0]) := by
  have ordered : SortedBy chainGraph [1, 0] := ⟨by decide, by decide⟩
  have distinct : chainGraph.DistinctPackages := by unfold Graph.DistinctPackages; decide
  have gates := createPlans_gates_iff id ordered distinct
  exact gates.2.1.mpr (gates.2.2 (by unfold DistinctKeys; decide))

/-- Numpy is not scheduled behind the installation of python it depends on. -/
theorem reinstall_dependency_not_gated :
    SortedBy reinstallGraph [2, 1, 0] ∧ reinstallGraph.DistinctPackages ∧
      ¬ DependenciesGate id reinstallGraph reinstallGroups := by
  refine ⟨reinstallGraph_sorted, by unfold Graph.DistinctPackages; decide, fun gate => ?_⟩
  have missing : 1 ∉ successorsOf reinstallPlans 0 := by decide
  have holdsSource : HoldsVertex reinstallGroups reinstallGraph 0 0 := by unfold HoldsVertex; decide
  have holdsTarget : HoldsVertex reinstallGroups reinstallGraph 1 1 := by unfold HoldsVertex; decide
  exact missing (gate (0, 1) (by decide) 0 1 holdsSource holdsTarget (by decide)).1

end Gates

end ReqPack.Scheduler
