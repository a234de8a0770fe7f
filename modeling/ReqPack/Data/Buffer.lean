import Mathlib.Data.List.Basic

/-! # Buffers

Values that are written into a buffer at a position, and regions that are read back.
-/

namespace ReqPack.Data

universe u

variable {α : Type u}

/-- `memcpy` of the values to a position. -/
def overwrite (buffer : List α) (position : Nat) (values : List α) : List α :=
  buffer.take position ++ values ++ buffer.drop (position + values.length)

/-- The region of a length at a position. -/
def slice (buffer : List α) (position length : Nat) : List α := (buffer.drop position).take length

section Regions

variable {buffer values : List α} {position other length : Nat}

theorem overwrite_length (room : position + values.length ≤ buffer.length) :
    (overwrite buffer position values).length = buffer.length := by
  simp only [overwrite, List.length_append, List.length_take, List.length_drop]
  omega

/-- What lies before the written values is left alone. -/
theorem slice_overwrite_before (before : other + length ≤ position) (room : position ≤ buffer.length) :
    slice (overwrite buffer position values) other length = slice buffer other length := by
  have front : (buffer.take position).length = position := List.length_take_of_le room
  have inside : length ≤ ((buffer.take position).drop other).length := by
    simp only [List.length_drop, front]
    omega
  rw [slice, overwrite, List.append_assoc, List.drop_append_of_le_length (by omega),
    List.take_append_of_le_length inside, List.drop_take, List.take_take, slice]
  congr 1
  omega

/-- What lies behind the written values is left alone. -/
theorem slice_overwrite_behind (behind : position + values.length ≤ other) (room : position ≤ buffer.length) :
    slice (overwrite buffer position values) other length = slice buffer other length := by
  have front : (buffer.take position ++ values).length = position + values.length := by
    simp [List.length_take_of_le room]
  rw [slice, overwrite, List.drop_append, front, List.drop_drop,
    List.drop_eq_nil_of_le (by omega), List.nil_append, slice]
  congr 2
  omega

/-- A region begins with the values that were written to its position. -/
theorem slice_overwrite (inside : values.length ≤ length) (room : position ≤ buffer.length) :
    slice (overwrite buffer position values) position length =
      values ++ slice buffer (position + values.length) (length - values.length) := by
  have front : (buffer.take position).length = position := List.length_take_of_le room
  rw [slice, overwrite, List.append_assoc, List.drop_append, front, List.drop_eq_nil_of_le (by omega),
    Nat.sub_self, List.drop_zero, List.nil_append, List.take_append, List.take_of_length_le inside, slice]

theorem slice_replicate {count : Nat} {value : α} (room : position + length ≤ count) :
    slice (List.replicate count value) position length = List.replicate length value := by
  rw [slice, List.drop_replicate, List.take_replicate, Nat.min_eq_left (by omega)]

@[simp] theorem overwrite_nil : overwrite buffer position [] = buffer := by
  simp [overwrite]

end Regions

/-! ## Several writes -/

/-- Values written to their positions one after another. -/
def overwriteAll (buffer : List α) (writes : List (Nat × List α)) : List α :=
  writes.foldl (fun buffer write => overwrite buffer write.1 write.2) buffer

section Writes

variable {buffer values : List α} {writes front behind : List (Nat × List α)} {position length : Nat}

/-- The write stays inside a buffer of the size. -/
def Fits (size : Nat) (write : Nat × List α) : Prop := write.1 + write.2.length ≤ size

/-- The write does not touch the region. -/
def Apart (position length : Nat) (write : Nat × List α) : Prop :=
  position + length ≤ write.1 ∨ write.1 + write.2.length ≤ position

theorem overwriteAll_length (fits : ∀ write ∈ writes, Fits buffer.length write) :
    (overwriteAll buffer writes).length = buffer.length := by
  induction writes generalizing buffer with
  | nil => rfl
  | cons write writes ih =>
      have same := overwrite_length (fits write List.mem_cons_self)
      have rest := @ih (overwrite buffer write.1 write.2) fun later member => by
        rw [same]
        exact fits later (List.mem_cons_of_mem _ member)
      exact rest.trans same

theorem slice_overwriteAll_apart (fits : ∀ write ∈ writes, Fits buffer.length write)
    (apart : ∀ write ∈ writes, Apart position length write) :
    slice (overwriteAll buffer writes) position length = slice buffer position length := by
  induction writes generalizing buffer with
  | nil => rfl
  | cons write writes ih =>
      have inside := fits write List.mem_cons_self
      have same := overwrite_length inside
      have start : write.1 ≤ buffer.length := Nat.le_trans (Nat.le_add_right _ _) inside
      have rest := @ih (overwrite buffer write.1 write.2)
        (fun later member => by
          rw [same]
          exact fits later (List.mem_cons_of_mem _ member))
        (fun later member => apart later (List.mem_cons_of_mem _ member))
      have first : slice (overwrite buffer write.1 write.2) position length = slice buffer position length := by
        rcases apart write List.mem_cons_self with before | past
        · exact slice_overwrite_before before start
        · exact slice_overwrite_behind past start
      exact rest.trans first

/-- The region of one write among others that do not touch it. -/
theorem slice_overwriteAll (whole : writes = front ++ (position, values) :: behind)
    (fits : ∀ write ∈ writes, Fits buffer.length write) (inside : values.length ≤ length)
    (apart : ∀ write ∈ front ++ behind, Apart position length write) :
    slice (overwriteAll buffer writes) position length =
      values ++ slice buffer (position + values.length) (length - values.length) := by
  subst whole
  have frontFits : ∀ write ∈ front, Fits buffer.length write := fun write member =>
    fits write (List.mem_append_left _ member)
  have frontLength := overwriteAll_length frontFits
  have room : Fits (overwriteAll buffer front).length (position, values) := by
    rw [frontLength]
    exact fits _ (List.mem_append_right _ List.mem_cons_self)
  have start : position ≤ (overwriteAll buffer front).length := Nat.le_trans (Nat.le_add_right _ _) room
  have split : overwriteAll buffer (front ++ (position, values) :: behind) =
      overwriteAll (overwrite (overwriteAll buffer front) position values) behind := by
    simp [overwriteAll, List.foldl_append]
  rw [split, slice_overwriteAll_apart, slice_overwrite inside start, slice_overwriteAll_apart frontFits]
  · intro write member
    rcases apart write (List.mem_append_left _ member) with before | past
    · exact Or.inl (by omega)
    · exact Or.inr (by omega)
  · intro write member
    rw [overwrite_length room, frontLength]
    exact fits write (List.mem_append_right _ (List.mem_cons_of_mem _ member))
  · exact fun write member => apart write (List.mem_append_right _ member)

end Writes

end ReqPack.Data
