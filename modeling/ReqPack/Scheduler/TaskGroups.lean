import Mathlib.Data.Prod.Lex
import Mathlib.Data.Char
import Mathlib.Data.List.Lex
import Mathlib.Order.WithBot
import ReqPack.Data.Ordering
import ReqPack.Core.Graph
import ReqPack.Core.Platform

/-! # Task groups

`TaskGraphBuilder::orderedVertices` and `createFromGraph`: the package graph is
put in level order and cut into runs of equal action and system.  What
`boost::topological_sort` returned is an argument; `TopologicalOrder` is what it
is documented to be once it has been reversed.
-/

namespace ReqPack.Scheduler

open ReqPack.Data ReqPack.Core

inductive RecordStatus where
  | success
  | failed
  | skipped
deriving Repr, DecidableEq

/-- `Executer::TransactionRecord`. -/
structure TransactionRecord where
  runId : String := ""
  system : String
  action : ActionType
  packageName : String
  packageVersion : String
  status : RecordStatus
  errorMessage : String := ""
deriving Repr, DecidableEq

/-- `Executer::TaskGroup`.  The plugin pointer is the name of the plugin instance. -/
structure TaskGroup where
  action : ActionType := .unknown
  system : String := ""
  packages : List Package := []
  flags : List String := []
  localPath : String := ""
  usesLocalTarget : Bool := false
  plugin : Option String := none
  pluginLoadFailed : Bool := false
  nixSoftSkipConsumers : List String := []
deriving Repr, DecidableEq, Inhabited

def hasFailure (records : List TransactionRecord) : Bool :=
  records.any fun record => record.status == .failed

def mergeTaskGroupFlags (target packageFlags : List String) : List String :=
  packageFlags.foldl (fun flags flag => if flag ∈ flags then flags else flags ++ [flag]) target

namespace TaskGroup

/-- Put one package at the end of a group; a local target takes over the path of
the whole group. -/
def push (group : TaskGroup) (package : Package) : TaskGroup :=
  let extended := { group with packages := group.packages ++ [package] }
  if package.localTarget then
    { extended with usesLocalTarget := true, localPath := package.sourcePath }
  else extended

/-- The group opened by a package whose action or system differs from the last one. -/
def openFor (package : Package) : TaskGroup :=
  { action := package.action, system := package.system, flags := package.flags }

end TaskGroup

/-- One round of the grouping loop shared by `createFromGraph` and
`createTaskGroupsFromRecords`. -/
def appendToGroups (groups : List TaskGroup) (package : Package) : List TaskGroup :=
  match groups.getLast? with
  | none => [(TaskGroup.openFor package).push package]
  | some last =>
      if last.action != package.action || last.system != package.system then
        groups ++ [(TaskGroup.openFor package).push package]
      else
        groups.dropLast ++
          [({ last with flags := mergeTaskGroupFlags last.flags package.flags }).push package]

def groupAdjacent (packages : List Package) : List TaskGroup :=
  packages.foldl appendToGroups []

/-- The comparator of `orderedVertices`. -/
def vertexLess (platform : Platform) (graph : Graph) (levels : Nat → Nat) (a b : Nat) : Bool :=
  if levels a ≠ levels b then decide (levels a < levels b)
  else
    match internalEnsureOrder platform (graph.package a),
        internalEnsureOrder platform (graph.package b) with
    | some orderA, some orderB =>
        if orderA ≠ orderB then decide (orderA < orderB)
        else textLess (graph.package a).system (graph.package b).system
    | some _, none => true
    | none, some _ => false
    | none, none => textLess (graph.package a).system (graph.package b).system

/-- `TaskGraphBuilder::orderedVertices`; `sorted` is what `boost::topological_sort`
wrote, targets before sources. -/
def orderedVertices (platform : Platform) (graph : Graph) (sorted : List Nat) : List Nat :=
  let order := sorted.reverse
  stableSort (vertexLess platform graph (levelsAlong graph.edges order fun _ => 0)) order

/-- `TaskGraphBuilder::createFromGraph`. -/
def createFromGraph (platform : Platform) (graph : Graph) (sorted : List Nat) : List TaskGroup :=
  let groups := groupAdjacent ((orderedVertices platform graph sorted).map graph.package)
  if platform.reorderNonNixBeforeNix then
    (groups.filter fun group => !isNixInstallSystem group.system) ++
      groups.filter fun group => isNixInstallSystem group.system
  else groups

/-- `boost::topological_sort` succeeded: the reversed output is a topological
order of all vertices. -/
def SortedBy (graph : Graph) (sorted : List Nat) : Prop :=
  TopologicalOrder graph.packages.length graph.edges sorted.reverse

section Order

variable {platform : Platform} {graph : Graph}

/-- A vertex without an ensure order comes after every vertex with one. -/
def ensureRank : Option Nat → WithTop Nat
  | none => ⊤
  | some order => WithTop.some order

/-- The comparator is lexicographic in the level, the ensure order and the system,
so it is a strict weak order whatever the flags are. -/
def vertexKey (platform : Platform) (graph : Graph) (levels : Nat → Nat) (vertex : Nat) :
    Nat ×ₗ WithTop Nat ×ₗ List Char :=
  toLex (levels vertex,
    toLex (ensureRank (internalEnsureOrder platform (graph.package vertex)),
      (graph.package vertex).system.toList))

theorem vertexLess_iff_key_lt (platform : Platform) (graph : Graph) (levels : Nat → Nat) (a b : Nat) :
    vertexLess platform graph levels a b = true ↔
      vertexKey platform graph levels a < vertexKey platform graph levels b := by
  simp only [vertexLess, vertexKey, Prod.Lex.toLex_lt_toLex]
  by_cases level : levels a = levels b
  · simp only [level, ne_eq, not_true_eq_false, if_false, lt_irrefl, false_or, true_and]
    cases internalEnsureOrder platform (graph.package a) with
    | none =>
        cases internalEnsureOrder platform (graph.package b) with
        | none => simp [ensureRank, textLess]
        | some second => simp [ensureRank]
    | some first =>
        cases internalEnsureOrder platform (graph.package b) with
        | none => simp [ensureRank]
        | some second =>
            by_cases equal : first = second
            · simp [ensureRank, textLess, equal]
            · simp [ensureRank, equal]
  · simp [level]

theorem orderedVertices_perm (platform : Platform) (graph : Graph) (sorted : List Nat) :
    (orderedVertices platform graph sorted).Perm sorted.reverse :=
  stableSort_perm _ _

theorem SortedBy.mem_orderedVertices {sorted : List Nat} (ordered : SortedBy graph sorted)
    {vertex : Nat} :
    vertex ∈ orderedVertices platform graph sorted ↔ vertex < graph.packages.length := by
  rw [(orderedVertices_perm platform graph sorted).mem_iff]
  exact ordered.mem_iff

theorem SortedBy.nodup_orderedVertices {sorted : List Nat} (ordered : SortedBy graph sorted) :
    (orderedVertices platform graph sorted).Nodup :=
  (orderedVertices_perm platform graph sorted).nodup_iff.mpr ordered.nodup

/-- Every edge of an acyclic graph points forward in the execution order. -/
theorem SortedBy.orderedVertices_forward {sorted : List Nat} (ordered : SortedBy graph sorted)
    {source target : Nat} (edge : (source, target) ∈ graph.edges) :
    (orderedVertices platform graph sorted).idxOf source <
      (orderedVertices platform graph sorted).idxOf target := by
  have bounds := graph.bounded _ edge
  have level := ordered.level_lt edge bounds.1 fun _ => 0
  have pairwise := stableSort_pairwise_key
    (vertexKey platform graph (levelsAlong graph.edges sorted.reverse fun _ => 0))
    (vertexLess_iff_key_lt platform graph _) sorted.reverse
  apply idxOf_lt_of_key_lt pairwise (ordered.mem_orderedVertices.2 bounds.1)
    (ordered.mem_orderedVertices.2 bounds.2)
  exact Prod.Lex.toLex_lt_toLex.mpr (Or.inl level)

end Order

section Grouping

/-- The path a group ends up with: that of the last local target put into it. -/
def lastLocalPath (packages : List Package) : String :=
  ((packages.filter (·.localTarget)).getLast?.map (·.sourcePath)).getD ""

/-- What the grouping loop guarantees of each group it builds. -/
structure TaskGroup.Coherent (group : TaskGroup) : Prop where
  nonempty : group.packages ≠ []
  action : ∀ package ∈ group.packages, package.action = group.action
  system : ∀ package ∈ group.packages, package.system = group.system
  usesLocalTarget : group.usesLocalTarget = group.packages.any (·.localTarget)
  localPath : group.localPath = lastLocalPath group.packages
  plugin : group.plugin = none
  pluginLoadFailed : group.pluginLoadFailed = false

@[simp] theorem TaskGroup.push_packages (group : TaskGroup) (package : Package) :
    (group.push package).packages = group.packages ++ [package] := by
  unfold TaskGroup.push
  split <;> rfl

@[simp] theorem TaskGroup.push_action (group : TaskGroup) (package : Package) :
    (group.push package).action = group.action := by
  unfold TaskGroup.push
  split <;> rfl

@[simp] theorem TaskGroup.push_system (group : TaskGroup) (package : Package) :
    (group.push package).system = group.system := by
  unfold TaskGroup.push
  split <;> rfl

@[simp] theorem TaskGroup.push_plugin (group : TaskGroup) (package : Package) :
    (group.push package).plugin = group.plugin := by
  unfold TaskGroup.push
  split <;> rfl

@[simp] theorem TaskGroup.push_pluginLoadFailed (group : TaskGroup) (package : Package) :
    (group.push package).pluginLoadFailed = group.pluginLoadFailed := by
  unfold TaskGroup.push
  split <;> rfl

theorem TaskGroup.push_usesLocalTarget (group : TaskGroup) (package : Package) :
    (group.push package).usesLocalTarget = (group.usesLocalTarget || package.localTarget) := by
  unfold TaskGroup.push
  cases target : package.localTarget <;> simp

theorem TaskGroup.push_localPath (group : TaskGroup) (package : Package) :
    (group.push package).localPath =
      if package.localTarget then package.sourcePath else group.localPath := by
  unfold TaskGroup.push
  cases target : package.localTarget <;> simp

theorem lastLocalPath_concat (packages : List Package) (package : Package) :
    lastLocalPath (packages ++ [package]) =
      if package.localTarget then package.sourcePath else lastLocalPath packages := by
  unfold lastLocalPath
  cases target : package.localTarget <;> simp [List.filter_append, target]

/-- Adding a package of the group's own action and system keeps the group coherent;
the flags play no part. -/
theorem TaskGroup.push_coherent {group : TaskGroup} {package : Package}
    (actions : ∀ member ∈ group.packages, member.action = group.action)
    (systems : ∀ member ∈ group.packages, member.system = group.system)
    (targets : group.usesLocalTarget = group.packages.any (·.localTarget))
    (path : group.localPath = lastLocalPath group.packages)
    (plugin : group.plugin = none) (loaded : group.pluginLoadFailed = false)
    (action : package.action = group.action) (system : package.system = group.system) :
    (group.push package).Coherent where
  nonempty := by simp
  action := by
    intro member present
    rw [TaskGroup.push_packages] at present
    rcases List.mem_append.mp present with old | new
    · simpa using actions member old
    · obtain rfl := List.mem_singleton.mp new
      simpa using action
  system := by
    intro member present
    rw [TaskGroup.push_packages] at present
    rcases List.mem_append.mp present with old | new
    · simpa using systems member old
    · obtain rfl := List.mem_singleton.mp new
      simpa using system
  usesLocalTarget := by
    rw [TaskGroup.push_usesLocalTarget, targets, TaskGroup.push_packages, List.any_append]
    simp
  localPath := by
    rw [TaskGroup.push_localPath, TaskGroup.push_packages, lastLocalPath_concat, path]
  plugin := by simpa using plugin
  pluginLoadFailed := by simpa using loaded

theorem openFor_push_coherent (package : Package) :
    ((TaskGroup.openFor package).push package).Coherent := by
  apply TaskGroup.push_coherent
  all_goals simp [TaskGroup.openFor, lastLocalPath]

/-- The three things one round of the grouping loop can do. -/
theorem appendToGroups_cases (groups : List TaskGroup) (package : Package) :
    appendToGroups groups package = groups ++ [(TaskGroup.openFor package).push package] ∨
      ∃ earlier last, groups = earlier ++ [last] ∧ last.action = package.action ∧
        last.system = package.system ∧
        appendToGroups groups package = earlier ++
          [({ last with flags := mergeTaskGroupFlags last.flags package.flags }).push package] := by
  rcases List.eq_nil_or_concat groups with empty | ⟨earlier, last, split⟩
  · left
    simp [appendToGroups, empty]
  · rw [List.concat_eq_append] at split
    subst groups
    by_cases fits : last.action = package.action ∧ last.system = package.system
    · right
      exact ⟨earlier, last, rfl, fits.1, fits.2, by simp [appendToGroups, fits.1, fits.2]⟩
    · left
      have apart : (last.action != package.action || last.system != package.system) = true := by
        rw [Bool.or_eq_true, bne_iff_ne, bne_iff_ne]
        exact not_and_or.mp fits
      simp [appendToGroups, apart]

theorem appendToGroups_packages (groups : List TaskGroup) (package : Package) :
    (appendToGroups groups package).flatMap (·.packages) =
      groups.flatMap (·.packages) ++ [package] := by
  rcases appendToGroups_cases groups package with opened | ⟨earlier, last, rfl, _, _, joined⟩
  · rw [opened]
    simp [TaskGroup.openFor]
  · rw [joined]
    simp

theorem appendToGroups_coherent {groups : List TaskGroup}
    (coherent : ∀ group ∈ groups, group.Coherent) (package : Package) :
    ∀ group ∈ appendToGroups groups package, group.Coherent := by
  intro group member
  rcases appendToGroups_cases groups package with opened | ⟨earlier, last, rfl, action, system, joined⟩
  · rw [opened] at member
    rcases List.mem_append.mp member with old | new
    · exact coherent group old
    · rw [List.mem_singleton.mp new]
      exact openFor_push_coherent package
  · rw [joined] at member
    rcases List.mem_append.mp member with old | new
    · exact coherent group (List.mem_append_left _ old)
    · rw [List.mem_singleton.mp new]
      have lastCoherent := coherent last (by simp)
      exact TaskGroup.push_coherent lastCoherent.action lastCoherent.system
        lastCoherent.usesLocalTarget lastCoherent.localPath lastCoherent.plugin
        lastCoherent.pluginLoadFailed action.symm system.symm

/-- Grouping neither drops, repeats nor reorders packages. -/
theorem groupAdjacent_packages (packages : List Package) :
    (groupAdjacent packages).flatMap (·.packages) = packages := by
  induction packages using List.reverseRecOn with
  | nil => rfl
  | append_singleton packages package ih =>
      rw [groupAdjacent, List.foldl_concat, appendToGroups_packages]
      exact congrArg (· ++ [package]) ih

theorem groupAdjacent_coherent (packages : List Package) :
    ∀ group ∈ groupAdjacent packages, group.Coherent := by
  induction packages using List.reverseRecOn with
  | nil => simp [groupAdjacent]
  | append_singleton packages package ih =>
      rw [groupAdjacent, List.foldl_concat]
      exact appendToGroups_coherent ih package

/-- What stands in one group stays together when more packages are added. -/
theorem appendToGroups_keeps {groups : List TaskGroup} {group : TaskGroup} (member : group ∈ groups)
    (package : Package) :
    ∃ larger ∈ appendToGroups groups package, ∀ held ∈ group.packages, held ∈ larger.packages := by
  rcases appendToGroups_cases groups package with opened | ⟨earlier, last, rfl, _, _, joined⟩
  · rw [opened]
    exact ⟨group, List.mem_append_left _ member, fun _ held => held⟩
  · rw [joined]
    rcases List.mem_append.mp member with old | new
    · exact ⟨group, List.mem_append_left _ old, fun _ held => held⟩
    · obtain rfl := List.mem_singleton.mp new
      refine ⟨_, List.mem_append_right _ (List.mem_singleton_self _), fun package held => ?_⟩
      rw [TaskGroup.push_packages]
      exact List.mem_append_left _ held

theorem foldl_appendToGroups_keeps {groups : List TaskGroup} {group : TaskGroup} (member : group ∈ groups)
    (packages : List Package) :
    ∃ larger ∈ packages.foldl appendToGroups groups, ∀ held ∈ group.packages, held ∈ larger.packages := by
  induction packages generalizing groups group with
  | nil => exact ⟨group, member, fun _ held => held⟩
  | cons package packages ih =>
      obtain ⟨middle, present, inside⟩ := appendToGroups_keeps member package
      obtain ⟨larger, final, around⟩ := ih present
      exact ⟨larger, final, fun held listed => around held (inside held listed)⟩

/-- The last group holds the package just added, beside what stood there if that agrees with it. -/
theorem appendToGroups_last (groups : List TaskGroup) (package : Package) :
    ∃ earlier group, appendToGroups groups package = earlier ++ [group] ∧
      group.action = package.action ∧ group.system = package.system ∧ package ∈ group.packages ∧
      ∀ front last, groups = front ++ [last] → last.action = package.action →
        last.system = package.system → ∀ held ∈ last.packages, held ∈ group.packages := by
  rcases appendToGroups_cases groups package with opened | ⟨earlier, last, rfl, action, system, joined⟩
  · refine ⟨_, _, opened, by simp [TaskGroup.openFor], by simp [TaskGroup.openFor],
      by simp [TaskGroup.openFor], ?_⟩
    intro front last split action system
    subst split
    have joined : appendToGroups (front ++ [last]) package ≠
        front ++ [last] ++ [(TaskGroup.openFor package).push package] := by
      intro equal
      simpa [appendToGroups, action, system] using congrArg List.length equal
    exact absurd opened joined
  · refine ⟨_, _, joined, by simp [action], by simp [system], by simp, ?_⟩
    intro front other split _ _ held listed
    obtain ⟨_, rfl⟩ := List.append_singleton_inj.mp split
    rw [TaskGroup.push_packages]
    exact List.mem_append_left _ listed

/-- A stretch of packages with one action and one system goes into one group. -/
theorem groupAdjacent_block (front block back : List Package) (action : ActionType) (system : String)
    (some : block ≠ []) (uniform : ∀ package ∈ block, package.action = action ∧ package.system = system) :
    ∃ group ∈ groupAdjacent (front ++ block ++ back), ∀ package ∈ block, package ∈ group.packages := by
  -- Behind the stretch the last group holds all of it.
  have last : ∃ groups group, groupAdjacent (front ++ block) = groups ++ [group] ∧
      group.action = action ∧ group.system = system ∧ ∀ package ∈ block, package ∈ group.packages := by
    induction block using List.reverseRecOn with
    | nil => exact absurd rfl some
    | append_singleton block package ih =>
        obtain ⟨sameAction, sameSystem⟩ := uniform package (by simp)
        rw [← List.append_assoc, groupAdjacent, List.foldl_concat, ← groupAdjacent]
        obtain ⟨earlier, group, split, groupAction, groupSystem, held, kept⟩ :=
          appendToGroups_last (groupAdjacent (front ++ block)) package
        refine ⟨earlier, group, split, groupAction.trans sameAction, groupSystem.trans sameSystem, ?_⟩
        intro other member
        rcases List.mem_append.mp member with old | new
        · obtain ⟨groups, last, before, lastAction, lastSystem, inside⟩ := ih (List.ne_nil_of_mem old)
            fun other listed => uniform other (List.mem_append_left _ listed)
          exact kept groups last before (lastAction.trans sameAction.symm)
            (lastSystem.trans sameSystem.symm) other (inside other old)
        · rw [List.mem_singleton.mp new]
          exact held
  obtain ⟨groups, group, split, _, _, held⟩ := last
  have member : group ∈ groupAdjacent (front ++ block) := by
    rw [split]
    exact List.mem_append_right _ (List.mem_singleton_self _)
  obtain ⟨larger, final, inside⟩ := foldl_appendToGroups_keeps member back
  refine ⟨larger, ?_, fun package listed => inside package (held package listed)⟩
  rw [groupAdjacent, List.foldl_append]
  exact final

theorem createFromGraph_coherent (platform : Platform) (graph : Graph) (sorted : List Nat) :
    ∀ group ∈ createFromGraph platform graph sorted, group.Coherent := by
  intro group member
  simp only [createFromGraph] at member
  split at member
  · rcases List.mem_append.mp member with first | second
    · exact groupAdjacent_coherent _ group (List.mem_of_mem_filter first)
    · exact groupAdjacent_coherent _ group (List.mem_of_mem_filter second)
  · exact groupAdjacent_coherent _ group member

/-- On a build without the Nix reordering the groups, read one after the other,
list the packages in execution order. -/
theorem createFromGraph_posix_packages (graph : Graph) (sorted : List Nat) :
    (createFromGraph .posix graph sorted).flatMap (·.packages) =
      (orderedVertices .posix graph sorted).map graph.package :=
  groupAdjacent_packages _

/-- The groups hold vertices of the sorted list and nothing else. -/
theorem exists_vertex_of_mem_createFromGraph {platform : Platform} {graph : Graph} {sorted : List Nat}
    {group : TaskGroup} (member : group ∈ createFromGraph platform graph sorted) {package : Package}
    (listed : package ∈ group.packages) : ∃ vertex ∈ sorted, graph.package vertex = package := by
  have grouped : group ∈ groupAdjacent ((orderedVertices platform graph sorted).map graph.package) := by
    simp only [createFromGraph] at member
    split at member
    · rcases List.mem_append.mp member with first | second
      · exact List.mem_of_mem_filter first
      · exact List.mem_of_mem_filter second
    · exact member
  have flat : package ∈ (groupAdjacent ((orderedVertices platform graph sorted).map graph.package)).flatMap
      (·.packages) := List.mem_flatMap.mpr ⟨group, grouped, listed⟩
  rw [groupAdjacent_packages] at flat
  obtain ⟨vertex, ordered, same⟩ := List.mem_map.mp flat
  refine ⟨vertex, ?_, same⟩
  simpa using (orderedVertices_perm platform graph sorted).mem_iff.mp ordered

end Grouping

end ReqPack.Scheduler
