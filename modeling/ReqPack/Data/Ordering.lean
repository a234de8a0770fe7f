import Mathlib.Data.List.Sort
import Mathlib.Data.List.Perm.Basic
import ReqPack.Data.Digraph

/-! # Stable sorting and levels along a topological order

`std::stable_sort` with a comparator `less` is insertion sort for the relation
`¬ less b a`; `std::sort` promises an order for strict weak orders only.  The second half is the relaxation that gives every vertex of a
graph a level above the levels of all its predecessors.
-/

namespace ReqPack.Data

universe u

section Sorting

variable {α : Type u}

/-- `std::stable_sort`: elements that neither precedes the other keep their order. -/
def stableSort (less : α → α → Bool) (values : List α) : List α :=
  values.insertionSort fun left right => less right left = false

theorem stableSort_perm (less : α → α → Bool) (values : List α) :
    (stableSort less values).Perm values :=
  List.perm_insertionSort _ values

/-- Renaming elements in a way the comparator does not see commutes with sorting. -/
theorem stableSort_map {less : α → α → Bool} {rename : α → α}
    (blind : ∀ left right, less (rename left) (rename right) = less left right) (values : List α) :
    stableSort less (values.map rename) = (stableSort less values).map rename := by
  refine (List.map_insertionSort _ _ rename values fun left _ right _ => ?_).symm
  rw [blind]

/-- A comparator that compares a key in a linear order sorts by that key. -/
theorem stableSort_pairwise_key {κ : Type u} [LinearOrder κ] {less : α → α → Bool} (key : α → κ)
    (byKey : ∀ left right, less left right = true ↔ key left < key right) (values : List α) :
    (stableSort less values).Pairwise fun left right => key left ≤ key right := by
  have relation : ∀ left right, less right left = false ↔ key left ≤ key right := by
    intro left right
    rw [← not_lt, ← byKey right left, Bool.not_eq_true]
  have total : Std.Total fun left right : α => less right left = false :=
    ⟨fun left right => by simpa only [relation] using le_total (key left) (key right)⟩
  have transitive : IsTrans α fun left right : α => less right left = false :=
    ⟨fun left middle right first second => by
      rw [relation] at first second ⊢
      exact le_trans first second⟩
  exact (List.pairwise_insertionSort _ values).imp fun sorted => (relation _ _).mp sorted

/-- What `std::sort` may leave: the same elements, in order if the comparator is a strict weak
order on them. -/
structure SortsTo (less : α → α → Bool) (values sorted : List α) : Prop where
  perm : sorted.Perm values
  ordered : IsStrictWeakOrder {value // value ∈ values} (fun left right => less left.1 right.1 = true) →
    sorted.Pairwise fun left right => less right left = false

/-- A comparator that answers the same both ways is a strict weak order only where it never
says yes, so it sorts nothing. -/
theorem sortsTo_iff_of_symmetric {less : α → α → Bool} (symmetric : ∀ left right, less left right = less right left)
    {values sorted : List α} : SortsTo less values sorted ↔ sorted.Perm values := by
  apply Iff.intro
  · exact SortsTo.perm
  · intro perm
    refine ⟨perm, ?_⟩
    intro weak
    apply List.pairwise_of_forall_mem_list
    intro left leftMember right rightMember
    rw [← Bool.not_eq_true]
    intro below
    have above : less left right = true := (symmetric left right).trans below
    exact weak.irrefl ⟨left, perm.mem_iff.1 leftMember⟩
      (weak.trans _ ⟨right, perm.mem_iff.1 rightMember⟩ _ above below)

variable [DecidableEq α]

/-- The identity on all lists but one, in which it puts an element behind the others. -/
def movedLast (values : List α) (last : α) (given : List α) : List α :=
  if given = values then values.erase last ++ [last] else given

theorem movedLast_self (values : List α) (last : α) : movedLast values last values = values.erase last ++ [last] :=
  if_pos rfl

theorem movedLast_perm {values : List α} {last : α} (member : last ∈ values) (given : List α) :
    (movedLast values last given).Perm given := by
  rw [movedLast]
  split
  · rename_i same
    rw [same]
    exact (List.perm_append_singleton last _).trans (List.perm_cons_erase member).symm
  · exact List.Perm.refl _

/-- In a list sorted by a key, an element with a smaller key stands first. -/
theorem idxOf_lt_of_key_lt {κ : Type u} [LinearOrder κ] {key : α → κ} {values : List α}
    (sorted : values.Pairwise fun left right => key left ≤ key right)
    {left right : α} (leftMember : left ∈ values) (rightMember : right ∈ values)
    (smaller : key left < key right) : values.idxOf left < values.idxOf right := by
  have leftBound := List.idxOf_lt_length_iff.mpr leftMember
  have rightBound := List.idxOf_lt_length_iff.mpr rightMember
  rcases Nat.lt_trichotomy (values.idxOf left) (values.idxOf right) with before | equal | after
  · exact before
  · have same : left = right := (List.idxOf_inj leftMember).mp equal
    subst right
    exact absurd smaller (lt_irrefl _)
  · have ordered := List.pairwise_iff_getElem.mp sorted _ _ rightBound leftBound after
    simp only [List.getElem_idxOf] at ordered
    exact absurd smaller (not_lt.mpr ordered)

end Sorting

section Levels

/-- Raise every successor of `source` that is not above it yet. -/
def raiseTargets (source : Nat) : List (Nat × Nat) → (Nat → Nat) → Nat → Nat
  | [], levels => levels
  | edge :: edges, levels =>
      raiseTargets source edges <|
        if edge.1 = source ∧ levels edge.2 ≤ levels source then
          Function.update levels edge.2 (levels source + 1)
        else levels

def levelsAlong (edges : List (Nat × Nat)) (order : List Nat) (levels : Nat → Nat) : Nat → Nat :=
  order.foldl (fun levels source => raiseTargets source edges levels) levels

variable {edges : List (Nat × Nat)}

theorem le_raiseTargets (source vertex : Nat) (levels : Nat → Nat) :
    levels vertex ≤ raiseTargets source edges levels vertex := by
  induction edges generalizing levels with
  | nil => exact Nat.le_refl _
  | cons edge edges ih =>
      refine Nat.le_trans ?_ (ih _)
      split
      · rename_i low
        by_cases same : vertex = edge.2
        · subst vertex
          simp only [Function.update_self]
          omega
        · simp [Function.update_of_ne same]
      · exact Nat.le_refl _

theorem raiseTargets_of_not_target {source vertex : Nat} {levels : Nat → Nat}
    (apart : (source, vertex) ∉ edges) :
    raiseTargets source edges levels vertex = levels vertex := by
  induction edges generalizing levels with
  | nil => rfl
  | cons edge edges ih =>
      rw [raiseTargets, ih (fun member => apart (List.mem_cons_of_mem _ member))]
      split
      · rename_i low
        have different : vertex ≠ edge.2 := by
          rintro rfl
          exact apart (by rw [← low.1]; exact List.mem_cons_self)
        exact Function.update_of_ne different _ _
      · rfl

theorem lt_raiseTargets {source target : Nat} (levels : Nat → Nat)
    (noLoop : (source, source) ∉ edges) (edge : (source, target) ∈ edges) :
    levels source < raiseTargets source edges levels target := by
  induction edges generalizing levels with
  | nil => cases edge
  | cons first edges ih =>
      have restNoLoop : (source, source) ∉ edges :=
        fun member => noLoop (List.mem_cons_of_mem _ member)
      rw [raiseTargets]
      rcases List.mem_cons.mp edge with rfl | member
      · refine Nat.lt_of_lt_of_le ?_ (le_raiseTargets source target _)
        split
        · simp
        · rename_i high
          simp only [true_and] at high
          omega
      · -- the level of `source` itself does not move, so the later edge still applies
        have kept : levels source =
            (if first.1 = source ∧ levels first.2 ≤ levels source then
              Function.update levels first.2 (levels source + 1) else levels) source := by
          split
          · rename_i low
            have different : source ≠ first.2 := by
              intro same
              apply noLoop
              have : first = (source, source) := Prod.ext low.1 same.symm
              rw [this]
              exact List.mem_cons_self
            exact (Function.update_of_ne different _ _).symm
          · rfl
        exact Nat.lt_of_le_of_lt (Nat.le_of_eq kept) (ih _ restNoLoop member)

theorem le_levelsAlong (edges : List (Nat × Nat)) (order : List Nat) (levels : Nat → Nat) (vertex : Nat) :
    levels vertex ≤ levelsAlong edges order levels vertex := by
  induction order generalizing levels with
  | nil => exact Nat.le_refl _
  | cons source order ih =>
      exact Nat.le_trans (le_raiseTargets source vertex levels) (ih _)

theorem levelsAlong_of_not_target {order : List Nat} {vertex : Nat} {levels : Nat → Nat}
    (apart : ∀ source ∈ order, (source, vertex) ∉ edges) :
    levelsAlong edges order levels vertex = levels vertex := by
  induction order generalizing levels with
  | nil => rfl
  | cons source order ih =>
      have rest : levelsAlong edges order (raiseTargets source edges levels) vertex =
          raiseTargets source edges levels vertex :=
        ih fun later member => apart later (List.mem_cons_of_mem _ member)
      exact rest.trans (raiseTargets_of_not_target (apart source List.mem_cons_self))

theorem raiseTargets_le {position : Nat → Nat} (forward : ∀ edge ∈ edges, position edge.1 < position edge.2)
    (source : Nat) {levels : Nat → Nat} (below : ∀ vertex, levels vertex ≤ position vertex) (vertex : Nat) :
    raiseTargets source edges levels vertex ≤ position vertex := by
  induction edges generalizing levels with
  | nil => exact below vertex
  | cons edge edges ih =>
      rw [List.forall_mem_cons] at forward
      apply ih forward.2
      intro other
      split
      · rename_i low
        by_cases same : other = edge.2
        · have ahead := forward.1
          have start := below edge.1
          rw [low.1] at ahead start
          rw [same, Function.update_self]
          omega
        · rw [Function.update_of_ne same]
          exact below other
      · exact below other

/-- A level stays below any position that grows along the edges. -/
theorem levelsAlong_le {position : Nat → Nat} (forward : ∀ edge ∈ edges, position edge.1 < position edge.2)
    (order : List Nat) {levels : Nat → Nat} (below : ∀ vertex, levels vertex ≤ position vertex) (vertex : Nat) :
    levelsAlong edges order levels vertex ≤ position vertex := by
  induction order generalizing levels with
  | nil => exact below vertex
  | cons source order ih => exact ih (raiseTargets_le forward source below)

/-- Along a topological order the levels end up strictly growing on every edge. -/
theorem TopologicalOrder.level_lt {count : Nat} {order : List Nat}
    (sorted : TopologicalOrder count edges order) {source target : Nat}
    (edge : (source, target) ∈ edges) (bound : source < count) (levels : Nat → Nat) :
    levelsAlong edges order levels source < levelsAlong edges order levels target := by
  obtain ⟨before, after, split⟩ := List.append_of_mem (sorted.mem_iff.2 bound)
  have sourcePosition : order.idxOf source = before.length := by
    have fresh : source ∉ before := by
      have distinct := sorted.nodup
      rw [split] at distinct
      intro member
      exact (List.nodup_append.mp distinct).2.2 source member source List.mem_cons_self rfl
    rw [split, List.idxOf_append_of_notMem fresh, List.idxOf_cons_self, Nat.add_zero]
  have noIncoming : ∀ later ∈ source :: after, (later, source) ∉ edges := by
    intro later member incoming
    have forward := sorted.forward _ incoming
    simp only [sourcePosition] at forward
    have inBefore : later ∈ before := by
      rw [split] at forward
      by_contra outside
      rw [List.idxOf_append_of_notMem outside] at forward
      omega
    have distinct := sorted.nodup
    rw [split] at distinct
    exact (List.nodup_append.mp distinct).2.2 later inBefore later member rfl
  rw [split]
  simp only [levelsAlong, List.foldl_append, List.foldl_cons]
  generalize reached : List.foldl (fun levels source => raiseTargets source edges levels)
    levels before = middle
  have sourceKept : levelsAlong edges after (raiseTargets source edges middle) source =
      middle source :=
    (levelsAlong_of_not_target fun later member =>
      noIncoming later (List.mem_cons_of_mem _ member)).trans
      (raiseTargets_of_not_target (noIncoming source List.mem_cons_self))
  have raised := lt_raiseTargets middle (noIncoming source List.mem_cons_self) edge
  have targetGrows := le_levelsAlong edges after (raiseTargets source edges middle) target
  simp only [levelsAlong] at sourceKept targetGrows
  omega

end Levels

end ReqPack.Data
