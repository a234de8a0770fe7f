import Mathlib.Data.List.Basic
import Mathlib.Logic.Function.Basic
import Mathlib.Order.Lattice

/-! # Edit distance

The distance of two lists is the length of a shortest script of insertions, deletions and
substitutions.  It is computed by a recursion on the lists, and by rows of a table of which
only the last one is kept.
-/

namespace ReqPack.Data

universe u

variable {α : Type u}

/-- A script of a length that turns one list into another. -/
inductive Edits : Nat → List α → List α → Prop
  | done : Edits 0 [] []
  | keep {count : Nat} {left right : List α} (letter : α) (rest : Edits count left right) :
      Edits count (letter :: left) (letter :: right)
  | substitute {count : Nat} {left right : List α} (first second : α) (rest : Edits count left right) :
      Edits (count + 1) (first :: left) (second :: right)
  | delete {count : Nat} {left right : List α} (first : α) (rest : Edits count left right) :
      Edits (count + 1) (first :: left) right
  | insert {count : Nat} {left right : List α} (second : α) (rest : Edits count left right) :
      Edits (count + 1) left (second :: right)

section Scripts

variable {count other : Nat} {left right : List α}

theorem edits_nil_left (right : List α) : Edits right.length [] right := by
  induction right with
  | nil => exact Edits.done
  | cons second right ih => exact Edits.insert second ih

theorem edits_nil_right (left : List α) : Edits left.length left [] := by
  induction left with
  | nil => exact Edits.done
  | cons first left ih => exact Edits.delete first ih

theorem Edits.append {later final : List α} (edits : Edits count left right) (rest : Edits other later final) :
    Edits (count + other) (left ++ later) (right ++ final) := by
  induction edits with
  | done => simpa using rest
  | keep letter _ ih => exact ih.keep letter
  | substitute first second _ ih =>
      rw [Nat.add_right_comm]
      exact ih.substitute first second
  | delete first _ ih =>
      rw [Nat.add_right_comm]
      exact ih.delete first
  | insert second _ ih =>
      rw [Nat.add_right_comm]
      exact ih.insert second

theorem Edits.reverse (edits : Edits count left right) : Edits count left.reverse right.reverse := by
  induction edits with
  | done => exact Edits.done
  | keep letter _ ih =>
      rw [List.reverse_cons, List.reverse_cons]
      exact ih.append (Edits.done.keep letter)
  | substitute first second _ ih =>
      rw [List.reverse_cons, List.reverse_cons]
      exact ih.append (Edits.done.substitute first second)
  | delete first _ ih =>
      rw [List.reverse_cons]
      simpa using ih.append (Edits.done.delete first)
  | insert second _ ih =>
      rw [List.reverse_cons]
      simpa using ih.append (Edits.done.insert second)

/-- A script is at least as long as the lists differ in length. -/
theorem Edits.length_le (edits : Edits count left right) :
    left.length ≤ right.length + count ∧ right.length ≤ left.length + count := by
  induction edits with
  | done => exact ⟨Nat.le_refl _, Nat.le_refl _⟩
  | keep letter _ ih =>
      rw [List.length_cons, List.length_cons]
      omega
  | substitute first second _ ih =>
      rw [List.length_cons, List.length_cons]
      omega
  | delete first _ ih =>
      rw [List.length_cons]
      omega
  | insert second _ ih =>
      rw [List.length_cons]
      omega

theorem edits_refl (left : List α) : Edits 0 left left := by
  induction left with
  | nil => exact Edits.done
  | cons letter left ih => exact ih.keep letter

end Scripts

section Distance

variable [DecidableEq α] {count : Nat} {left right : List α}

/-- The recursive edit distance. -/
def editDistance : List α → List α → Nat
  | [], right => right.length
  | left, [] => left.length
  | first :: left, second :: right =>
      min (min (editDistance left (second :: right) + 1) (editDistance (first :: left) right + 1))
        (editDistance left right + if first = second then 0 else 1)
termination_by left right => left.length + right.length

@[simp] theorem editDistance_nil_left (right : List α) : editDistance [] right = right.length := by
  rw [editDistance]

@[simp] theorem editDistance_nil_right (left : List α) : editDistance left [] = left.length := by
  cases left with
  | nil => rw [editDistance]
  | cons first left =>
      rw [editDistance]
      exact List.cons_ne_nil _ _

theorem editDistance_cons (first second : α) (left right : List α) :
    editDistance (first :: left) (second :: right) =
      min (min (editDistance left (second :: right) + 1) (editDistance (first :: left) right + 1))
        (editDistance left right + if first = second then 0 else 1) := by
  rw [editDistance]

theorem min_three (first second third : Nat) :
    min (min first second) third = first ∨ min (min first second) third = second ∨
      min (min first second) third = third := by
  omega

/-- There is a script of that length. -/
theorem edits_editDistance (left right : List α) : Edits (editDistance left right) left right := by
  fun_induction editDistance left right with
  | case1 right => exact edits_nil_left right
  | case2 left => exact edits_nil_right left
  | case3 first left second right deleted inserted kept =>
      obtain same | same | same := min_three (editDistance left (second :: right) + 1)
        (editDistance (first :: left) right + 1) (editDistance left right + if first = second then 0 else 1)
      · rw [same]
        exact deleted.delete first
      · rw [same]
        exact inserted.insert second
      · rw [same]
        split
        · rename_i equal
          rw [equal]
          exact kept.keep second
        · exact kept.substitute first second

/-- No script is shorter. -/
theorem editDistance_le (edits : Edits count left right) : editDistance left right ≤ count := by
  induction edits with
  | done => rw [editDistance_nil_left, List.length_nil]
  | keep letter rest ih =>
      rw [editDistance_cons, if_pos rfl]
      omega
  | substitute first second rest ih =>
      rw [editDistance_cons]
      split <;> omega
  | @delete count left right first rest ih =>
      cases right with
      | nil =>
          rw [editDistance_nil_right] at ih ⊢
          rw [List.length_cons]
          omega
      | cons second right =>
          rw [editDistance_cons]
          omega
  | @insert count left right second rest ih =>
      cases left with
      | nil =>
          rw [editDistance_nil_left] at ih ⊢
          rw [List.length_cons]
          omega
      | cons first left =>
          rw [editDistance_cons]
          omega

/-- The distance is the length of a shortest script. -/
theorem editDistance_eq_iff :
    editDistance left right = count ↔ Edits count left right ∧ ∀ other, Edits other left right → count ≤ other := by
  apply Iff.intro
  · intro same
    subst same
    exact ⟨edits_editDistance left right, fun other => editDistance_le⟩
  · intro shortest
    exact Nat.le_antisymm (editDistance_le shortest.1) (shortest.2 _ (edits_editDistance left right))

theorem editDistance_reverse (left right : List α) : editDistance left.reverse right.reverse = editDistance left right := by
  apply Nat.le_antisymm
  · exact editDistance_le (edits_editDistance left right).reverse
  · have back := (edits_editDistance left.reverse right.reverse).reverse
    rw [List.reverse_reverse, List.reverse_reverse] at back
    exact editDistance_le back

/-- The recursion from the other end. -/
theorem editDistance_concat (left right : List α) (first second : α) :
    editDistance (left ++ [first]) (right ++ [second]) =
      min (min (editDistance left (right ++ [second]) + 1) (editDistance (left ++ [first]) right + 1))
        (editDistance left right + if first = second then 0 else 1) := by
  rw [← editDistance_reverse, ← editDistance_reverse left (right ++ [second]),
    ← editDistance_reverse (left ++ [first]) right, ← editDistance_reverse left right, List.reverse_concat,
    List.reverse_concat, editDistance_cons]

/-- A list and a longer one that begins with it are as far apart as the rest is long. -/
theorem editDistance_append (left rest : List α) : editDistance left (left ++ rest) = rest.length := by
  rw [editDistance_eq_iff]
  apply And.intro
  · have script := (edits_refl left).append (edits_nil_left rest)
    rwa [List.append_nil, Nat.zero_add] at script
  · intro other edits
    have longer := edits.length_le.2
    rw [List.length_append] at longer
    omega

/-! ## The table -/

/-- The distance of two beginnings. -/
def distanceCell (left right : List α) (row column : Nat) : Nat := editDistance (left.take row) (right.take column)

theorem distanceCell_zero_row {column : Nat} (inside : column ≤ right.length) :
    distanceCell left right 0 column = column := by
  rw [distanceCell, List.take_zero, editDistance_nil_left, List.length_take_of_le inside]

theorem distanceCell_zero_column {row : Nat} (inside : row ≤ left.length) : distanceCell left right row 0 = row := by
  rw [distanceCell, List.take_zero, editDistance_nil_right, List.length_take_of_le inside]

/-- A cell is got from those above it, to its left, and above that one. -/
theorem distanceCell_succ {row column : Nat} (rowInside : row < left.length) (columnInside : column < right.length) :
    distanceCell left right (row + 1) (column + 1) =
      min (min (distanceCell left right row (column + 1) + 1) (distanceCell left right (row + 1) column + 1))
        (distanceCell left right row column + if left[row] = right[column] then 0 else 1) := by
  have longerRow := List.take_concat_get rowInside
  have longerColumn := List.take_concat_get columnInside
  rw [List.concat_eq_append] at longerRow longerColumn
  simp only [distanceCell]
  rw [← longerRow, ← longerColumn, editDistance_concat]

theorem distanceCell_length (left right : List α) :
    distanceCell left right left.length right.length = editDistance left right := by
  rw [distanceCell, List.take_length, List.take_length]

end Distance

end ReqPack.Data
