import Mathlib.Data.List.Nodup
import ReqPack.Planner.Build

/-! # When the planner returns a directed acyclic graph

The recursion always ends, because a system is expanded only once along a chain
of dependencies.  The guard is about systems while the vertices are packages, so
which edges are drawn has to be read off the chains of calls: the graph is
acyclic exactly when the dependency relation between the packages on such chains is.
-/

namespace ReqPack.Planner

open ReqPack.Data ReqPack.Core

/-- The six fields by which the planner tells packages apart. -/
abbrev Identity := ActionType × String × String × String × Bool × String

def identity (package : Package) : Identity :=
  (package.action, package.system, package.name, package.version, package.localTarget,
    package.sourcePath)

theorem plannerSamePackage_iff_identity {left right : Package} :
    plannerSamePackage left right = true ↔ identity left = identity right := by
  simp only [plannerSamePackage_iff, identity, Prod.mk.injEq]

def identities (graph : Graph) : List Identity := graph.packages.map identity

/-- There is an edge between the vertices with these identities. -/
def HasEdge (graph : Graph) (source target : Identity) : Prop :=
  ∃ edge ∈ graph.edges, (identities graph)[edge.1]? = some source ∧
    (identities graph)[edge.2]? = some target

/-- A call of the recursion: a package and the systems that are being expanded. -/
abbrev Call := Package × List String

/-- A call goes on to the missing dependencies unless its system is being
expanded already or belongs to the gateway. -/
def CallStep (env : PlannerEnv) (call next : Call) : Prop :=
  call.1.system ∉ call.2 ∧ env.gatewayExists call.1.system = false ∧
    next.1 ∈ missingDependencies env call.1 ∧ next.2 = call.2 ++ [call.1.system]

/-- The identities of the packages a call reaches. -/
def VisitedFrom (env : PlannerEnv) (call : Call) (vertex : Identity) : Prop :=
  ∃ reached, Relation.ReflTransGen (CallStep env) call reached ∧ identity reached.1 = vertex

/-- The edges a call draws: from a dependency to the package that is expanded. -/
def EdgeFrom (env : PlannerEnv) (call : Call) (source target : Identity) : Prop :=
  source ≠ target ∧ ∃ reached next, Relation.ReflTransGen (CallStep env) call reached ∧
    CallStep env reached next ∧ identity next.1 = source ∧ identity reached.1 = target

/-- What a part of the construction adds to the graph. -/
structure Grown (before after : Graph) (visited : Identity → Prop)
    (drawn : Identity → Identity → Prop) : Prop where
  distinct : (identities after).Nodup
  kept : ∃ extra, identities after = identities before ++ extra
  vertices : ∀ vertex, vertex ∈ identities after ↔ vertex ∈ identities before ∨ visited vertex
  edges : ∀ source target, HasEdge after source target ↔ HasEdge before source target ∨ drawn source target

section Growth

variable {graph middle after : Graph} {visited visited' : Identity → Prop}
  {drawn drawn' : Identity → Identity → Prop}

theorem Grown.getElem? (grown : Grown graph after visited drawn) {vertex : Nat} {value : Identity}
    (found : (identities graph)[vertex]? = some value) : (identities after)[vertex]? = some value := by
  obtain ⟨extra, equal⟩ := grown.kept
  rw [equal, List.getElem?_append_left (List.getElem?_eq_some_iff.mp found).1]
  exact found

theorem Grown.refl (distinct : (identities graph).Nodup) :
    Grown graph graph (fun _ => False) fun _ _ => False where
  distinct := distinct
  kept := ⟨[], by simp⟩
  vertices := by simp
  edges := by simp

theorem Grown.trans (first : Grown graph middle visited drawn)
    (second : Grown middle after visited' drawn') :
    Grown graph after (fun vertex => visited vertex ∨ visited' vertex)
      fun source target => drawn source target ∨ drawn' source target where
  distinct := second.distinct
  kept := by
    obtain ⟨extra, equal⟩ := first.kept
    obtain ⟨extra', equal'⟩ := second.kept
    exact ⟨extra ++ extra', by rw [equal', equal, List.append_assoc]⟩
  vertices := by
    intro vertex
    rw [second.vertices, first.vertices, or_assoc]
  edges := by
    intro source target
    rw [second.edges, first.edges, or_assoc]

theorem Grown.congr (grown : Grown graph after visited drawn)
    (vertices : ∀ vertex, visited vertex ↔ visited' vertex)
    (edges : ∀ source target, drawn source target ↔ drawn' source target) :
    Grown graph after visited' drawn' where
  distinct := grown.distinct
  kept := grown.kept
  vertices := by
    intro vertex
    rw [grown.vertices, vertices]
  edges := by
    intro source target
    rw [grown.edges, edges]

end Growth

section Steps

theorem identities_modify (packages : List Package) (vertex : Nat) (flag : Package → Bool) :
    (packages.modify vertex fun other => { other with directRequest := flag other }).map identity =
      packages.map identity := by
  induction packages generalizing vertex with
  | nil => simp
  | cons package packages ih =>
      cases vertex with
      | zero => rfl
      | succ vertex => simp [ih]

theorem findOrAddPackageVertex_spec {graph : Graph} (distinct : (identities graph).Nodup)
    (package : Package) :
    (identities (findOrAddPackageVertex graph package).1)[(findOrAddPackageVertex graph package).2]? =
        some (identity package) ∧
      Grown graph (findOrAddPackageVertex graph package).1 (fun vertex => identity package = vertex)
        fun _ _ => False := by
  unfold findOrAddPackageVertex
  cases found : graph.packages.findIdx? fun other => plannerSamePackage other package with
  | some vertex =>
      obtain ⟨bound, same, _⟩ := List.findIdx?_eq_some_iff_getElem.mp found
      rw [plannerSamePackage_iff_identity] at same
      have kept : identities { graph with
          packages := graph.packages.modify vertex fun other =>
            { other with directRequest := other.directRequest || package.directRequest }
          bounded := by simpa using graph.bounded } = identities graph :=
        identities_modify graph.packages vertex fun other => other.directRequest || package.directRequest
      have here : (identities graph)[vertex]? = some (identity package) := by
        simp [identities, bound, same]
      refine ⟨by rw [kept]; exact here, ⟨by rw [kept]; exact distinct, ⟨[], by simp [kept]⟩,
        fun other => ?_, fun source target => ?_⟩⟩
      · rw [kept]
        constructor
        · exact Or.inl
        · rintro (member | rfl)
          · exact member
          · exact List.mem_of_getElem? here
      · simp only [HasEdge, kept, or_false]
  | none =>
      have fresh : identity package ∉ identities graph := by
        intro member
        obtain ⟨other, listed, same⟩ := List.mem_map.mp member
        have different := List.findIdx?_eq_none_iff.mp found other listed
        rw [plannerSamePackage_iff_identity.2 same] at different
        simp at different
      have appended : (graph.packages ++ [package]).map identity = identities graph ++ [identity package] := by
        simp [identities]
      refine ⟨?_, ⟨?_, ⟨[identity package], appended⟩, fun other => ?_, fun source target => ?_⟩⟩
      · simp [identities]
      · simp only [identities, appended]
        exact List.concat_eq_append ▸ distinct.concat fresh
      · simp only [identities, appended, List.mem_append, List.mem_singleton]
        rw [eq_comm]
      · rw [or_false]
        constructor
        · rintro ⟨edge, member, first, second⟩
          have bounds := graph.bounded edge member
          refine ⟨edge, member, ?_, ?_⟩
          · simpa [identities, List.getElem?_append_left, bounds.1] using first
          · simpa [identities, List.getElem?_append_left, bounds.2] using second
        · rintro ⟨edge, member, first, second⟩
          have bounds := graph.bounded edge member
          refine ⟨edge, member, ?_, ?_⟩
          · simpa [identities, List.getElem?_append_left, bounds.1] using first
          · simpa [identities, List.getElem?_append_left, bounds.2] using second

/-- An edge between vertices that are there already. -/
theorem addEdge_spec {graph : Graph} (distinct : (identities graph).Nodup) {source target : Nat}
    {first second : Identity} (sourceAt : (identities graph)[source]? = some first)
    (targetAt : (identities graph)[target]? = some second) :
    Grown graph (addEdge graph source target) (fun _ => False)
      fun start finish => start = first ∧ finish = second := by
  have bounds : source < graph.packages.length ∧ target < graph.packages.length := by
    have sourceBound := (List.getElem?_eq_some_iff.mp sourceAt).1
    have targetBound := (List.getElem?_eq_some_iff.mp targetAt).1
    simp only [identities, List.length_map] at sourceBound targetBound
    exact ⟨sourceBound, targetBound⟩
  unfold addEdge
  rw [dif_pos bounds]
  split
  · rename_i present
    refine ⟨distinct, ⟨[], by simp⟩, by simp, fun start finish => ⟨Or.inl, ?_⟩⟩
    rintro (old | ⟨rfl, rfl⟩)
    · exact old
    · exact ⟨(source, target), present, sourceAt, targetAt⟩
  · refine ⟨distinct, ⟨[], by simp [identities]⟩, by simp [identities], fun start finish => ?_⟩
    constructor
    · rintro ⟨edge, member, edgeSource, edgeTarget⟩
      rcases List.mem_append.mp member with old | new
      · exact Or.inl ⟨edge, old, edgeSource, edgeTarget⟩
      · rw [List.mem_singleton.mp new] at edgeSource edgeTarget
        exact Or.inr ⟨Option.some.inj (edgeSource.symm.trans sourceAt),
          Option.some.inj (edgeTarget.symm.trans targetAt)⟩
    · rintro (⟨edge, member, edgeSource, edgeTarget⟩ | ⟨rfl, rfl⟩)
      · exact ⟨edge, List.mem_append_left _ member, edgeSource, edgeTarget⟩
      · exact ⟨(source, target), List.mem_append_right _ List.mem_cons_self, sourceAt, targetAt⟩

end Steps

section Recursion

variable {env : PlannerEnv}

/-- The call returned, and this is what it added. -/
def CallReturns (env : PlannerEnv) (fuel : Nat) (graph : Graph) (call : Call) : Prop :=
  ∃ after vertex, addPackageWithDependencies env fuel graph call.1 call.2 = some (after, vertex) ∧
    (identities after)[vertex]? = some (identity call.1) ∧
    Grown graph after (VisitedFrom env call) (EdgeFrom env call)

theorem visitedFrom_leaf {call : Call} (stuck : ∀ next, ¬ CallStep env call next) (vertex : Identity) :
    VisitedFrom env call vertex ↔ identity call.1 = vertex := by
  constructor
  · rintro ⟨reached, path, same⟩
    rcases Relation.ReflTransGen.cases_head path with rfl | ⟨next, step, _⟩
    · exact same
    · exact absurd step (stuck next)
  · intro same
    exact ⟨call, .refl, same⟩

theorem edgeFrom_leaf {call : Call} (stuck : ∀ next, ¬ CallStep env call next)
    (source target : Identity) : ¬ EdgeFrom env call source target := by
  rintro ⟨_, reached, next, path, step, _⟩
  rcases Relation.ReflTransGen.cases_head path with rfl | ⟨first, head, _⟩
  · exact stuck next step
  · exact stuck first head

theorem visitedFrom_iff {call : Call} (vertex : Identity) :
    VisitedFrom env call vertex ↔
      identity call.1 = vertex ∨ ∃ next, CallStep env call next ∧ VisitedFrom env next vertex := by
  constructor
  · rintro ⟨reached, path, same⟩
    rcases Relation.ReflTransGen.cases_head path with rfl | ⟨next, step, rest⟩
    · exact Or.inl same
    · exact Or.inr ⟨next, step, reached, rest, same⟩
  · rintro (same | ⟨next, step, reached, rest, same⟩)
    · exact ⟨call, .refl, same⟩
    · exact ⟨reached, .head step rest, same⟩

theorem edgeFrom_iff {call : Call} (source target : Identity) :
    EdgeFrom env call source target ↔
      ∃ next, CallStep env call next ∧
        ((source ≠ target ∧ identity next.1 = source ∧ identity call.1 = target) ∨
          EdgeFrom env next source target) := by
  constructor
  · rintro ⟨apart, reached, next, path, step, sourceSame, targetSame⟩
    rcases Relation.ReflTransGen.cases_head path with rfl | ⟨first, head, rest⟩
    · exact ⟨next, step, Or.inl ⟨apart, sourceSame, targetSame⟩⟩
    · exact ⟨first, head, Or.inr ⟨apart, reached, next, rest, step, sourceSame, targetSame⟩⟩
  · rintro ⟨next, step, ⟨apart, sourceSame, targetSame⟩ |
      ⟨apart, reached, last, path, final, sourceSame, targetSame⟩⟩
    · exact ⟨apart, call, next, .refl, step, sourceSame, targetSame⟩
    · exact ⟨apart, reached, last, .head step path, final, sourceSame, targetSame⟩

/-- The loop over the dependencies of an expanded package: every dependency is
added with its own call and linked to the package. -/
theorem foldlM_dependencies_spec {fuel : Nat} {current : Package} {activeSystems : List String}
    {vertex : Nat}
    (calls : ∀ graph dependency, (identities graph).Nodup →
      CallReturns env fuel graph (dependency, activeSystems))
    (dependencies : List Package) {graph : Graph} (distinct : (identities graph).Nodup)
    (here : (identities graph)[vertex]? = some (identity current)) :
    ∃ after, dependencies.foldlM (fun graph dependency =>
        (addPackageWithDependencies env fuel graph dependency activeSystems).map fun reached =>
          if reached.2 ≠ vertex then addEdge reached.1 reached.2 vertex else reached.1) graph =
        some after ∧
      Grown graph after
        (fun other => ∃ dependency ∈ dependencies, VisitedFrom env (dependency, activeSystems) other)
        fun source target => ∃ dependency ∈ dependencies,
          (source ≠ target ∧ identity dependency = source ∧ identity current = target) ∨
            EdgeFrom env (dependency, activeSystems) source target := by
  induction dependencies generalizing graph with
  | nil => exact ⟨graph, rfl, (Grown.refl distinct).congr (by simp) (by simp)⟩
  | cons dependency dependencies ih =>
      obtain ⟨middle, reached, called, reachedAt, grown⟩ := calls graph dependency distinct
      have stillHere := grown.getElem? here
      -- the edge is left out exactly when dependency and package are the same vertex
      have linked : ∃ linked, (if reached ≠ vertex then addEdge middle reached vertex else middle) =
          linked ∧ Grown middle linked (fun _ => False) fun source target =>
            source ≠ target ∧ identity dependency = source ∧ identity current = target := by
        refine ⟨_, rfl, ?_⟩
        by_cases same : reached = vertex
        · subst reached
          have equal : identity dependency = identity current :=
            Option.some.inj (reachedAt.symm.trans stillHere)
          simp only [ne_eq, not_true_eq_false, if_false]
          refine (Grown.refl grown.distinct).congr (by simp) fun source target => ?_
          simp only [false_iff, not_and]
          rintro apart rfl rfl
          exact apart equal
        · rw [if_pos same]
          have different : identity dependency ≠ identity current := by
            intro equal
            rw [equal] at reachedAt
            obtain ⟨firstBound, firstAt⟩ := List.getElem?_eq_some_iff.mp reachedAt
            obtain ⟨secondBound, secondAt⟩ := List.getElem?_eq_some_iff.mp stillHere
            exact same ((List.Nodup.getElem_inj_iff grown.distinct).mp (firstAt.trans secondAt.symm))
          refine (addEdge_spec grown.distinct reachedAt stillHere).congr (by simp)
            fun source target => ?_
          constructor
          · rintro ⟨rfl, rfl⟩
            exact ⟨different, rfl, rfl⟩
          · rintro ⟨_, rfl, rfl⟩
            exact ⟨rfl, rfl⟩
      obtain ⟨next, equal, link⟩ := linked
      obtain ⟨after, folded, rest⟩ := ih link.distinct (link.getElem? stillHere)
      refine ⟨after, ?_, ((grown.trans link).trans rest).congr ?_ ?_⟩
      · simp only [List.foldlM_cons, called, Option.map_some, equal]
        exact folded
      · intro other
        simp
      · intro source target
        simp only [List.mem_cons, exists_eq_or_imp]
        exact or_congr or_comm Iff.rfl

/-- How many systems with a bundle are not being expanded. -/
def unexpanded (env : PlannerEnv) (activeSystems : List String) : Nat :=
  ((env.bundles.map (·.1)).filter fun system => system ∉ activeSystems).length

theorem unexpanded_lt {activeSystems : List String} {system : String}
    (bundled : system ∈ env.bundles.map (·.1)) (inactive : system ∉ activeSystems) :
    unexpanded env (activeSystems ++ [system]) < unexpanded env activeSystems := by
  have narrowed : ((env.bundles.map (·.1)).filter fun other => other ∉ activeSystems ++ [system]) =
      ((env.bundles.map (·.1)).filter fun other => other ∉ activeSystems).filter fun other =>
        other ≠ system := by
    rw [List.filter_filter]
    apply List.filter_congr
    intro other _
    simp only [List.mem_append, List.mem_singleton, not_or, Bool.decide_and, Bool.and_comm]
  unfold unexpanded
  rw [narrowed]
  exact List.length_filter_lt_length_iff_exists.mpr
    ⟨system, List.mem_filter.mpr ⟨bundled, by simpa using inactive⟩, by simp⟩

theorem addPackageWithDependencies_leaf {fuel : Nat} {graph : Graph} {call : Call}
    (distinct : (identities graph).Nodup) (stuck : ∀ next, ¬ CallStep env call next)
    (returned : addPackageWithDependencies env (fuel + 1) graph call.1 call.2 =
      some (findOrAddPackageVertex graph call.1)) :
    CallReturns env (fuel + 1) graph call := by
  obtain ⟨here, grown⟩ := findOrAddPackageVertex_spec distinct call.1
  exact ⟨_, _, returned, here, grown.congr (fun vertex => (visitedFrom_leaf stuck vertex).symm)
    fun source target => by simp [edgeFrom_leaf stuck source target]⟩

/-- The recursion ends within the fuel and adds exactly the packages and edges of
its chains of calls.  The induction is on the fuel; each expansion uses up one of
the systems with a bundle. -/
theorem addPackageWithDependencies_spec {fuel : Nat} {graph : Graph} {call : Call}
    (distinct : (identities graph).Nodup) (enough : unexpanded env call.2 < fuel) :
    CallReturns env fuel graph call := by
  induction fuel generalizing graph call with
  | zero => omega
  | succ fuel ih =>
      by_cases active : call.1.system ∈ call.2
      · refine addPackageWithDependencies_leaf distinct (fun next step => step.1 active) ?_
        simp only [addPackageWithDependencies, active, if_true]
      by_cases gateway : env.gatewayExists call.1.system = true
      · refine addPackageWithDependencies_leaf distinct (fun next step => ?_) ?_
        · simp [step.2.1] at gateway
        · simp only [addPackageWithDependencies, active, gateway, if_true, if_false]
      have plugin : env.gatewayExists call.1.system = false := by simpa using gateway
      cases found : env.findInstalled call.1.system with
      | none =>
          have none' : missingDependencies env call.1 = [] := by simp [missingDependencies, found]
          refine addPackageWithDependencies_leaf distinct (fun next step => ?_) ?_
          · have member := step.2.2.1
            simp [none'] at member
          · simp [addPackageWithDependencies, active, plugin, none']
      | some bundle =>
          have smaller := unexpanded_lt (PlannerEnv.mem_systems_of_findInstalled found) active
          obtain ⟨here, grown⟩ := findOrAddPackageVertex_spec distinct call.1
          have calls : ∀ graph dependency, (identities graph).Nodup →
              CallReturns env fuel graph (dependency, call.2 ++ [call.1.system]) :=
            fun graph dependency distinct => ih distinct (Nat.lt_of_lt_of_le smaller (by omega))
          obtain ⟨after, folded, rest⟩ := foldlM_dependencies_spec calls
            (missingDependencies env call.1) grown.distinct here
          refine ⟨after, _, ?_, rest.getElem? here, (grown.trans rest).congr (fun vertex => ?_)
            fun source target => ?_⟩
          · simp only [addPackageWithDependencies, active, plugin, Bool.false_eq_true, if_false, folded,
              Option.map_some]
          · rw [visitedFrom_iff]
            refine or_congr Iff.rfl ⟨?_, ?_⟩
            · rintro ⟨dependency, member, visited⟩
              exact ⟨(dependency, call.2 ++ [call.1.system]), ⟨active, plugin, member, rfl⟩, visited⟩
            · rintro ⟨⟨dependency, systems⟩, ⟨_, _, member, rfl⟩, visited⟩
              exact ⟨dependency, member, visited⟩
          · rw [edgeFrom_iff, false_or]
            constructor
            · rintro ⟨dependency, member, drawn⟩
              exact ⟨(dependency, call.2 ++ [call.1.system]), ⟨active, plugin, member, rfl⟩, drawn⟩
            · rintro ⟨⟨dependency, systems⟩, ⟨_, _, member, rfl⟩, drawn⟩
              exact ⟨dependency, member, drawn⟩

end Recursion

section Requests

/-- The edges all requested packages ask for together. -/
def Needs (env : PlannerEnv) (entries : List (Package × Bool)) (source target : Identity) : Prop :=
  ∃ entry ∈ entries, entry.2 = true ∧ EdgeFrom env (entry.1, []) source target

theorem addRequested_spec (env : PlannerEnv) {graph : Graph} (distinct : (identities graph).Nodup)
    (entry : Package × Bool) :
    ∃ after visited, addRequested env graph entry = some after ∧
      Grown graph after visited fun source target =>
        entry.2 = true ∧ EdgeFrom env (entry.1, []) source target := by
  unfold addRequested
  by_cases expanded : entry.2 = true
  · have enough : unexpanded env [] < plannerFuel env := by
      simp [unexpanded, plannerFuel]
    obtain ⟨after, vertex, returned, _, grown⟩ : CallReturns env (plannerFuel env) graph (entry.1, []) :=
      addPackageWithDependencies_spec distinct enough
    refine ⟨after, _, ?_, grown.congr (fun _ => Iff.rfl) fun source target => ?_⟩
    · simp [expanded, addPackageToGraph, returned]
    · simp [expanded]
  · obtain ⟨_, grown⟩ := findOrAddPackageVertex_spec distinct entry.1
    exact ⟨_, _, by rw [if_neg expanded], grown.congr (fun _ => Iff.rfl) fun source target => by
      simp [expanded]⟩

theorem addAllRequested_spec (env : PlannerEnv) (entries : List (Package × Bool)) {graph : Graph}
    (distinct : (identities graph).Nodup) :
    ∃ after visited, addAllRequested env graph entries = some after ∧
      Grown graph after visited (Needs env entries) := by
  induction entries generalizing graph with
  | nil =>
      exact ⟨graph, _, rfl, (Grown.refl distinct).congr (fun _ => Iff.rfl) (by simp [Needs])⟩
  | cons entry entries ih =>
      obtain ⟨middle, visited, added, grown⟩ := addRequested_spec env distinct entry
      obtain ⟨after, visited', rest, grown'⟩ := ih grown.distinct
      refine ⟨after, _, ?_, (grown.trans grown').congr (fun _ => Iff.rfl) fun source target => ?_⟩
      · simp only [addAllRequested, List.foldlM_cons, added]
        exact rest
      · simp [Needs]

end Requests

section Cycles

theorem transGen_hasEdge {graph : Graph} {source target : Nat}
    (path : Relation.TransGen (Adjacent graph.edges) source target) :
    ∃ first second, (identities graph)[source]? = some first ∧
      (identities graph)[target]? = some second ∧
      Relation.TransGen (HasEdge graph) first second := by
  have present : ∀ edge ∈ graph.edges, ∃ first second, (identities graph)[edge.1]? = some first ∧
      (identities graph)[edge.2]? = some second := by
    intro edge member
    have bounds := graph.bounded edge member
    exact ⟨identity graph.packages[edge.1], identity graph.packages[edge.2],
      by simp [identities, bounds.1], by simp [identities, bounds.2]⟩
  induction path with
  | single edge =>
      obtain ⟨first, second, sourceAt, targetAt⟩ := present _ edge
      exact ⟨first, second, sourceAt, targetAt, .single ⟨_, edge, sourceAt, targetAt⟩⟩
  | tail _ edge ih =>
      obtain ⟨first, middle, sourceAt, middleAt, path⟩ := ih
      obtain ⟨middle', second, middleAt', targetAt⟩ := present _ edge
      exact ⟨first, second, sourceAt, targetAt, path.tail ⟨_, edge, middleAt, targetAt⟩⟩

theorem transGen_adjacent {graph : Graph} (distinct : (identities graph).Nodup)
    {first second : Identity} (path : Relation.TransGen (HasEdge graph) first second) :
    ∃ source target, (identities graph)[source]? = some first ∧
      (identities graph)[target]? = some second ∧
      Relation.TransGen (Adjacent graph.edges) source target := by
  induction path with
  | single edge =>
      obtain ⟨⟨source, target⟩, member, sourceAt, targetAt⟩ := edge
      exact ⟨source, target, sourceAt, targetAt, .single member⟩
  | tail _ edge ih =>
      obtain ⟨source, middle, sourceAt, middleAt, path⟩ := ih
      obtain ⟨⟨middle', target⟩, member, middleAt', targetAt⟩ := edge
      have same : middle = middle' := by
        obtain ⟨firstBound, firstEqual⟩ := List.getElem?_eq_some_iff.mp middleAt
        obtain ⟨secondBound, secondEqual⟩ := List.getElem?_eq_some_iff.mp middleAt'
        exact (List.Nodup.getElem_inj_iff distinct).mp (firstEqual.trans secondEqual.symm)
      subst same
      exact ⟨source, target, sourceAt, targetAt, path.tail member⟩

/-- Vertices are told apart by their identities, so a cycle can be read either way. -/
theorem isDag_iff {graph : Graph} (distinct : (identities graph).Nodup) :
    graph.IsDag ↔ ∀ package, ¬ Relation.TransGen (HasEdge graph) package package := by
  constructor
  · intro acyclic package cycle
    obtain ⟨source, target, sourceAt, targetAt, path⟩ := transGen_adjacent distinct cycle
    have same : source = target := by
      obtain ⟨firstBound, firstEqual⟩ := List.getElem?_eq_some_iff.mp sourceAt
      obtain ⟨secondBound, secondEqual⟩ := List.getElem?_eq_some_iff.mp targetAt
      exact (List.Nodup.getElem_inj_iff distinct).mp (firstEqual.trans secondEqual.symm)
    subst same
    exact acyclic source path
  · intro acyclic vertex cycle
    obtain ⟨first, second, firstAt, secondAt, path⟩ := transGen_hasEdge cycle
    obtain rfl := Option.some.inj (firstAt.symm.trans secondAt)
    exact acyclic first path

theorem addAllRequested_isDag (env : PlannerEnv) (entries : List (Package × Bool)) :
    ∃ graph, addAllRequested env .empty entries = some graph ∧
      (graph.IsDag ↔ ∀ package, ¬ Relation.TransGen (Needs env entries) package package) := by
  obtain ⟨graph, visited, built, grown⟩ := addAllRequested_spec env entries
    (show (identities .empty).Nodup by simp [identities, Graph.empty])
  refine ⟨graph, built, ?_⟩
  have edges : HasEdge graph = Needs env entries := by
    funext source target
    apply propext
    rw [grown.edges]
    simp [HasEdge, Graph.empty]
  rw [isDag_iff grown.distinct, edges]

/-- The recursion of the planner always ends, and the graph it returns is acyclic
exactly when the packages on its chains of calls do not depend on each other in a
circle.  A rank of the systems that every missing dependency lowers is enough. -/
theorem buildDag_isDag_iff (env : PlannerEnv) (requests : List Request) (dependencies : List Package) :
    (∃ graph, buildDag env requests = some graph ∧
      (graph.IsDag ↔ ∀ package,
        ¬ Relation.TransGen (Needs env (requestedEntries env requests)) package package)) ∧
    (∃ graph, buildDependencyDag env dependencies = some graph ∧
      (graph.IsDag ↔ ∀ package, ¬ Relation.TransGen
        (Needs env (dependencies.map fun dependency => (dependency, true))) package package)) ∧
    ∀ rank : String → Nat,
      (∀ current : Package, ∀ dependency ∈ missingDependencies env current,
        rank dependency.system < rank current.system) →
      ∀ entries package, ¬ Relation.TransGen (Needs env entries) package package := by
  refine ⟨addAllRequested_isDag env _, addAllRequested_isDag env _,
    fun rank lowers entries package cycle => ?_⟩
  have falls : ∀ source target, Needs env entries source target → rank source.2.1 < rank target.2.1 := by
    rintro source target ⟨entry, _, _, _, reached, next, _, step, rfl, rfl⟩
    exact lowers reached.1 next.1 step.2.2.1
  exact Nat.lt_irrefl _ (rank_lt_of_transGen falls cycle)

/-- The pip plugin lists two packages of its own system as dependencies. -/
def pipEnv : PlannerEnv where
  resolvePluginName := id
  gatewayExists := fun _ => false
  bundles := [("pip", { dependencyPackages := [{ name := "setuptools" }, { name := "wheel" }] })]
  pluginLoads := fun _ => true
  getMissingPackages := fun _ packages => packages
  requirementsProvisioned := fun _ => false

def pipRequests : List Request :=
  [{ action := .install, system := "pip", packages := ["setuptools", "wheel"] }]

/-- Each of the two requested packages becomes a dependency of the other one. -/
theorem pip_requests_cycle :
    ∃ graph, buildDag pipEnv pipRequests = some graph ∧ ¬ graph.IsDag := by
  have edges : (buildDag pipEnv pipRequests).map (·.edges) = some [(1, 0), (0, 1)] := by decide
  obtain ⟨graph, built, drawn⟩ := Option.map_eq_some_iff.mp edges
  refine ⟨graph, built, fun acyclic => acyclic 0 ?_⟩
  have forth : Adjacent graph.edges 0 1 := by
    rw [drawn, Adjacent]
    decide
  have back : Adjacent graph.edges 1 0 := by
    rw [drawn, Adjacent]
    decide
  exact .tail (.single forth) back

end Cycles

end ReqPack.Planner
