import Mathlib.Data.List.Flatten
import Mathlib.Data.List.Forall2
import Mathlib.Data.List.Induction
import Mathlib.Data.List.Nodup
import Mathlib.Data.List.Pairwise
import Mathlib.Data.List.Perm.Basic
import Mathlib.Data.List.TakeWhile

/-! # Lists related element by element, cut into parts, and sorted into bins -/

namespace ReqPack.Data

universe u v

section Related

variable {α : Type u} {β : Type v} {related : α → β → Prop}

theorem exists_left_of_forall₂ {left : List α} {right : List β} (paired : List.Forall₂ related left right)
    {second : β} (member : second ∈ right) : ∃ first ∈ left, related first second := by
  induction paired with
  | nil => simp at member
  | cons relates _ ih =>
      rcases List.mem_cons.mp member with rfl | later
      · exact ⟨_, List.mem_cons_self, relates⟩
      · obtain ⟨first, listed, holds⟩ := ih later
        exact ⟨first, List.mem_cons_of_mem _ listed, holds⟩

theorem exists_right_of_forall₂ {left : List α} {right : List β} (paired : List.Forall₂ related left right)
    {first : α} (member : first ∈ left) : ∃ second ∈ right, related first second :=
  exists_left_of_forall₂ paired.flip member

/-- A function that may fail maps a list exactly if it gives every element its result. -/
theorem mapM_eq_some_iff {choose : α → Option β} {values : List α} {results : List β} :
    values.mapM choose = some results ↔ List.Forall₂ (fun value result => choose value = some result) values results := by
  induction values generalizing results with
  | nil =>
      rw [List.mapM_nil, List.forall₂_nil_left_iff]
      apply Iff.intro
      · intro mapped
        cases mapped
        rfl
      · intro empty
        rw [empty]
        rfl
  | cons value values ih =>
      rw [List.mapM_cons, Option.bind_eq_bind, Option.bind_eq_some_iff, List.forall₂_cons_left_iff]
      apply Iff.intro
      · intro mapped
        obtain ⟨result, chosen, rest⟩ := mapped
        rw [Option.bind_eq_bind, Option.bind_eq_some_iff] at rest
        obtain ⟨others, mapped, whole⟩ := rest
        cases whole
        exact ⟨result, others, chosen, ih.1 mapped, rfl⟩
      · intro related
        obtain ⟨result, others, chosen, rest, rfl⟩ := related
        exact ⟨result, chosen, by rw [ih.2 rest]; rfl⟩

/-- What is in the results was got from an element. -/
theorem exists_of_mem_mapM {choose : α → Option β} {values : List α} {results : List β}
    (mapped : values.mapM choose = some results) {result : β} (member : result ∈ results) :
    ∃ value ∈ values, choose value = some result :=
  exists_left_of_forall₂ (mapM_eq_some_iff.1 mapped) member

/-- A monadic map of which each step succeeds. -/
theorem mapM_ok {ε : Type*} {read : α → Except ε β} {result : α → β} {values : List α}
    (each : ∀ value ∈ values, read value = .ok (result value)) : values.mapM read = .ok (values.map result) := by
  induction values with
  | nil => rfl
  | cons value values ih =>
      rw [List.forall_mem_cons] at each
      rw [List.mapM_cons, each.1, ih each.2]
      rfl

/-- A map that may fail relates each value to its result. -/
theorem mapM_eq_ok_iff {ε : Type*} {read : α → Except ε β} {values : List α} {results : List β} :
    values.mapM read = .ok results ↔ List.Forall₂ (fun value result => read value = .ok result) values results := by
  induction values generalizing results with
  | nil =>
      rw [List.forall₂_nil_left_iff]
      exact ⟨fun mapped => (Except.ok.inj mapped).symm, fun empty => by rw [empty]; rfl⟩
  | cons value values ih =>
      rw [List.mapM_cons]
      cases first : read value with
      | error message =>
          refine iff_of_false (fun mapped => by cases mapped) fun paired => ?_
          cases paired with
          | cons head _ =>
              rw [first] at head
              cases head
      | ok result =>
          cases rest : values.mapM read with
          | error message =>
              refine iff_of_false (fun mapped => by cases mapped) fun paired => ?_
              cases paired with
              | cons _ tail =>
                  rw [ih.2 tail] at rest
                  cases rest
          | ok others =>
              constructor
              · intro mapped
                cases mapped
                exact List.Forall₂.cons first (ih.1 rest)
              · intro paired
                cases paired with
                | cons head tail =>
                    rw [first] at head
                    cases head
                    cases rest.symm.trans (ih.2 tail)
                    rfl

theorem exists_mapM {ε : Type*} {read : α → Except ε β} {values : List α}
    (each : ∀ value ∈ values, ∃ result, read value = .ok result) : ∃ results, values.mapM read = .ok results := by
  induction values with
  | nil => exact ⟨[], rfl⟩
  | cons value values ih =>
      rw [List.forall_mem_cons] at each
      obtain ⟨result, head⟩ := each.1
      obtain ⟨results, tail⟩ := ih each.2
      exact ⟨result :: results, mapM_eq_ok_iff.2 (List.Forall₂.cons head (mapM_eq_ok_iff.1 tail))⟩

/-- A loop whose steps read first and then add to what is there. -/
theorem foldlM_read {ε γ : Type*} {read : α → Except ε β} {add : γ → β → γ} (values : List α) (state : γ) :
    values.foldlM (fun state value => (read value).map (add state)) state =
      (values.mapM read).map fun results => results.foldl add state := by
  induction values generalizing state with
  | nil => rfl
  | cons value values ih =>
      rw [List.foldlM_cons, List.mapM_cons]
      cases read value with
      | error message => rfl
      | ok result =>
          change List.foldlM _ (add state result) values = _
          rw [ih]
          cases values.mapM read with
          | error message => rfl
          | ok results => rfl

/-- What leads back to where it came from is no more than what it came from. -/
theorem map_filterMap_sublist {choose : α → Option β} {back : β → α} {values : List α}
    (returns : ∀ value ∈ values, ∀ result ∈ choose value, back result = value) :
    ((values.filterMap choose).map back).Sublist values := by
  induction values with
  | nil => exact List.Sublist.slnil
  | cons value values ih =>
      rw [List.forall_mem_cons] at returns
      rw [List.filterMap_cons]
      split
      · exact (ih returns.2).cons value
      · rename_i result chosen
        rw [List.map_cons, returns.1 result chosen]
        exact (ih returns.2).cons_cons value

theorem exists_of_sublistForall₂ {left : List α} {right : List β}
    (paired : List.SublistForall₂ related left right) {first : α} (member : first ∈ left) :
    ∃ second ∈ right, related first second := by
  obtain ⟨chosen, relates, sublist⟩ := List.sublistForall₂_iff.mp paired
  obtain ⟨second, listed, holds⟩ := exists_right_of_forall₂ relates member
  exact ⟨second, sublist.subset listed, holds⟩

end Related

section Parts

variable {α : Type u} {β : Type v}

/-- A value stands in one of the parts of a list without repetitions. -/
theorem part_unique {parts : List α} {values : α → List β} (nodup : (parts.flatMap values).Nodup)
    {first second : α} (firstPart : first ∈ parts) (secondPart : second ∈ parts) {value : β}
    (inFirst : value ∈ values first) (inSecond : value ∈ values second) : first = second := by
  have apart := (List.nodup_flatMap.mp nodup).2
  have symmetric : Std.Symm (Function.onFun List.Disjoint values) :=
    ⟨fun _ _ disjoint _ inFirst inSecond => disjoint inSecond inFirst⟩
  by_contra different
  exact apart.forall firstPart secondPart different inFirst inSecond

/-- In a list without repetitions the values of the first part stand ahead. -/
theorem not_sublist_of_parts {front back : List α} (nodup : (front ++ back).Nodup) {first second : α}
    (inFront : first ∈ front) (inBack : second ∈ back) : ¬ [second, first].Sublist (front ++ back) := by
  intro sublist
  have disjoint := List.disjoint_of_nodup_append nodup
  obtain ⟨left, right, split, inLeft, inRight⟩ := List.sublist_append_iff.mp sublist
  cases left with
  | nil =>
      obtain rfl : [second, first] = right := split
      exact disjoint inFront (inRight.subset (by simp))
  | cons value rest =>
      obtain rfl : second = value := (List.cons.inj split).1
      exact disjoint (inLeft.subset List.mem_cons_self) inBack

theorem not_sublist_swap {values : List α} (nodup : values.Nodup) {first second : α}
    (order : [first, second].Sublist values) : ¬ [second, first].Sublist values := by
  obtain ⟨front, back, rfl, inFront, inBack⟩ := List.cons_sublist_iff.mp order
  exact not_sublist_of_parts nodup inFront (List.singleton_sublist.mp inBack)

end Parts

section Bins

variable {α : Type u} {κ : Type v} [DecidableEq κ]

/-- The keys of a list in the order in which they first occur. -/
def firstKeys (key : α → κ) (values : List α) : List κ :=
  values.foldl (fun keys value => if key value ∈ keys then keys else keys ++ [key value]) []

theorem firstKeys_concat (key : α → κ) (values : List α) (last : α) :
    firstKeys key (values ++ [last]) =
      if key last ∈ firstKeys key values then firstKeys key values
      else firstKeys key values ++ [key last] := by
  rw [firstKeys, List.foldl_concat]
  rfl

theorem nodup_firstKeys (key : α → κ) (values : List α) : (firstKeys key values).Nodup := by
  induction values using List.reverseRecOn with
  | nil => exact List.nodup_nil
  | append_singleton values last ih =>
      rw [firstKeys_concat]
      split
      · exact ih
      · rename_i fresh
        refine List.nodup_append.mpr ⟨ih, List.pairwise_singleton _ _, fun first member second listed => ?_⟩
        rw [List.mem_singleton.mp listed]
        intro same
        exact fresh (same ▸ member)

theorem mem_firstKeys {key : α → κ} {values : List α} {value : α} (member : value ∈ values) :
    key value ∈ firstKeys key values := by
  induction values using List.reverseRecOn with
  | nil => simp at member
  | append_singleton values last ih =>
      rw [firstKeys_concat]
      rcases List.mem_append.mp member with old | new
      · split
        · exact ih old
        · exact List.mem_append_left _ (ih old)
      · obtain rfl := List.mem_singleton.mp new
        split
        · assumption
        · simp

/-- Putting a list into bins, one for each key, neither drops nor repeats anything. -/
theorem perm_bins {key : α → κ} {keys : List κ} (distinct : keys.Nodup) {values : List α}
    (covered : ∀ value ∈ values, key value ∈ keys) :
    (keys.flatMap fun bin => values.filter fun value => key value == bin).Perm values := by
  induction keys generalizing values with
  | nil =>
      have empty : values = [] := by
        rw [List.eq_nil_iff_forall_not_mem]
        intro value member
        simpa using covered value member
      rw [empty]
      exact .refl _
  | cons bin keys ih =>
      have elsewhere : ∀ value ∈ values.filter fun value => !(key value == bin), key value ∈ keys := by
        intro value member
        simp only [List.mem_filter, Bool.not_eq_true', beq_eq_false_iff_ne] at member
        exact (List.mem_cons.mp (covered value member.1)).resolve_left member.2
      have rest := ih (List.nodup_cons.mp distinct).2 elsewhere
      have others : (keys.flatMap fun other => (values.filter fun value => !(key value == bin)).filter
          fun value => key value == other) =
          keys.flatMap fun other => values.filter fun value => key value == other := by
        refine List.flatMap_congr fun other member => ?_
        rw [List.filter_filter]
        refine List.filter_congr fun value _ => ?_
        by_cases same : key value = other
        · have apart : key value ≠ bin := by
            rintro rfl
            exact (List.nodup_cons.mp distinct).1 (same ▸ member)
          simp [same, same ▸ apart]
        · simp [same]
      rw [List.flatMap_cons, ← others]
      exact (List.Perm.append_left _ rest).trans (List.filter_append_perm _ values)

end Bins

/-- Indices that are all different select each part at most once. -/
theorem subperm_flatMap_range {β : Type*} {indices : List Nat} {count : Nat} (once : indices.Nodup)
    (bounded : ∀ index ∈ indices, index < count) (parts : Nat → List β) :
    (indices.flatMap parts).Subperm ((List.range count).flatMap parts) := by
  have subperm := List.subperm_of_subset once fun index member => List.mem_range.mpr (bounded index member)
  obtain ⟨chosen, perm, sublist⟩ := subperm
  exact ⟨chosen.flatMap parts, perm.flatMap_right parts, sublist.flatMap parts⟩

section Cuts

variable {α : Type u} {β : Type v} {p : α → Bool} {q : β → Bool}

theorem splitOnP_append_left {front : List α} (unbroken : ∀ value ∈ front, p value = false) (rest : List α) :
    (front ++ rest).splitOnP p = (rest.splitOnP p).modifyHead (front ++ ·) := by
  obtain ⟨first, others, split⟩ := List.exists_cons_of_ne_nil (List.splitOnP_ne_nil p rest)
  induction front with
  | nil => simp [split]
  | cons value front ih =>
      have here := unbroken value (by simp)
      rw [List.cons_append, List.splitOnP_cons_eq_if_modifyHead, here,
        ih fun other member => unbroken other (List.mem_cons_of_mem _ member)]
      simp [split]

/-- Separators that become separators cut a list where they cut what becomes of it. -/
theorem splitOnP_flatMap {values : α → List β} {elements : List α}
    (separators : ∀ element ∈ elements, p element = true → ∃ value, values element = [value] ∧ q value = true)
    (others : ∀ element ∈ elements, p element = false → ∀ value ∈ values element, q value = false) :
    (elements.flatMap values).splitOnP q = (elements.splitOnP p).map fun part => part.flatMap values := by
  induction elements with
  | nil => rfl
  | cons element elements ih =>
      have rest := ih (fun other member => separators other (List.mem_cons_of_mem _ member))
        (fun other member => others other (List.mem_cons_of_mem _ member))
      rw [List.flatMap_cons, List.splitOnP_cons_eq_if_modifyHead]
      cases separates : p element with
      | true =>
          obtain ⟨value, becomes, cuts⟩ := separators element (by simp) separates
          rw [becomes, List.singleton_append, List.splitOnP_cons_eq_if_modifyHead, cuts, rest]
          rfl
      | false =>
          rw [splitOnP_append_left (others element (by simp) separates), rest]
          obtain ⟨first, later, split⟩ := List.exists_cons_of_ne_nil (List.splitOnP_ne_nil p elements)
          simp [split]

theorem mem_of_mem_splitOnP {values part : List α} (member : part ∈ values.splitOnP p) :
    ∀ value ∈ part, value ∈ values ∧ p value = false := by
  induction values generalizing part with
  | nil => simp_all
  | cons value values ih =>
      obtain ⟨first, later, split⟩ := List.exists_cons_of_ne_nil (List.splitOnP_ne_nil p values)
      rw [List.splitOnP_cons_eq_if_modifyHead] at member
      cases separates : p value with
      | true =>
          rw [separates, if_pos rfl] at member
          rcases List.mem_cons.mp member with rfl | later
          · simp
          · exact fun other inPart => ⟨List.mem_cons_of_mem _ (ih later other inPart).1, (ih later other inPart).2⟩
      | false =>
          rw [separates, split, if_neg (by simp), List.modifyHead_cons] at member
          intro other inPart
          rcases List.mem_cons.mp member with rfl | inLater
          · rcases List.mem_cons.mp inPart with rfl | inFirst
            · exact ⟨List.mem_cons_self, separates⟩
            · have found := @ih first (by simp [split]) other inFirst
              exact ⟨List.mem_cons_of_mem _ found.1, found.2⟩
          · have found := @ih part (by simp [split, inLater]) other inPart
            exact ⟨List.mem_cons_of_mem _ found.1, found.2⟩

end Cuts

section Separated

variable {α : Type u} {value : α} {values part front back : List α}

theorem mem_intersperse_of_mem {parts : List α} (member : value ∈ parts) (separator : α) :
    value ∈ parts.intersperse separator := by
  induction parts with
  | nil => cases member
  | cons first parts ih =>
      cases parts with
      | nil => exact member
      | cons second parts =>
          rw [List.intersperse_cons_cons]
          obtain rfl | later := List.mem_cons.1 member
          · exact List.mem_cons_self
          · exact List.mem_cons_of_mem _ (List.mem_cons_of_mem _ (ih later))

/-- The parts between separators are parts of the list. -/
theorem infix_of_mem_splitOn [DecidableEq α] (member : part ∈ values.splitOn value) : part <:+: values := by
  have joined := @List.intercalate_splitOn _ values _ _ value
  rw [List.intercalate] at joined
  rw [← joined]
  exact List.infix_of_mem_flatten (mem_intersperse_of_mem member [value])

theorem not_mem_of_mem_splitOn [DecidableEq α] (member : part ∈ values.splitOn value) : value ∉ part := by
  intro inside
  have apart := (mem_of_mem_splitOnP member value inside).2
  rw [beq_self_eq_true] at apart
  cases apart

/-- A list begins with a part that has no separator in it within what stands before the separator. -/
theorem prefix_of_prefix_cut (leading : part <+: front ++ value :: back) (unbroken : value ∉ part) : part <+: front := by
  obtain short | long := List.prefix_or_prefix_of_prefix leading (List.prefix_append front (value :: back))
  · exact short
  · obtain ⟨rest, same⟩ := long
    rw [← same, List.prefix_append_right_inj] at leading
    cases rest with
    | nil => simp [← same]
    | cons first rest =>
        obtain rfl := (List.cons_prefix_cons.1 leading).1
        simp [← same] at unbroken

theorem exists_last_of_mem [DecidableEq α] (member : value ∈ values) :
    ∃ front back, values = front ++ value :: back ∧ value ∉ back := by
  obtain ⟨back, front, same, first⟩ := List.eq_append_cons_of_mem (List.mem_reverse.2 member)
  refine ⟨front.reverse, back.reverse, ?_, by simpa using first⟩
  rw [← List.reverse_reverse values, same]
  simp

theorem all_ne [DecidableEq α] (unbroken : value ∉ front) : ∀ other ∈ front, (other != value) = true := by
  intro other member
  rw [bne_iff_ne]
  intro same
  rw [same] at member
  exact unbroken member

theorem takeWhile_ne_eq_self [DecidableEq α] (unbroken : value ∉ front) : front.takeWhile (· != value) = front :=
  List.takeWhile_eq_self_iff.2 (all_ne unbroken)

theorem takeWhile_ne_cut [DecidableEq α] (unbroken : value ∉ front) (back : List α) :
    (front ++ value :: back).takeWhile (· != value) = front := by
  rw [List.takeWhile_append_of_pos (all_ne unbroken), List.takeWhile_cons_of_neg (by simp), List.append_nil]

theorem drop_dropWhile_ne [DecidableEq α] (unbroken : value ∉ front) (back : List α) :
    ((front ++ value :: back).dropWhile (· != value)).drop 1 = back := by
  rw [List.dropWhile_append_of_pos (all_ne unbroken), List.dropWhile_cons_of_neg (by simp), List.drop_one,
    List.tail_cons]

end Separated

end ReqPack.Data
