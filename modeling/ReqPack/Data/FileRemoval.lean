import ReqPack.Data.FileBelow

/-! # Removal of directories

A removal that fails leaves any part of the tree behind; what is left still stands in its
directories.
-/

namespace ReqPack.Data.FileSystem

universe u v

variable {α : Type u} {β : Type v} [DecidableEq α]

/-- What cannot be removed stays, and so does all it stands in. -/
def stays (stuck : List (Location α)) (nodes : Nodes α β) (location : Location α) : Bool :=
  stuck.any fun other => location.isSuffixOf other && (nodes other).isSome

/-- `remove_all` at a place, without what is stuck there. -/
def removeTree (stuck : List (Location α)) (location : Location α) (disk : Disk α β) : Outcome α β :=
  (⟨fun other => if location <:+ other ∧ stays stuck disk.nodes other = false then none else disk.nodes other, disk.touched⟩,
    !stays stuck disk.nodes location)

/-- `remove` of a file or of a directory that nothing stands in. -/
def removeNode (stuck occupied : Bool) (location : Location α) (disk : Disk α β) : Outcome α β :=
  if stuck || occupied then (disk, false) else (⟨Function.update disk.nodes location none, disk.touched⟩, true)

section Removal

variable {stuck : List (Location α)} {top location other : Location α} {disk : Disk α β} {nodes : Nodes α β}

theorem stays_above (below : location <:+ other) (left : stays stuck nodes other = true) : stays stuck nodes location = true := by
  rw [stays, List.any_eq_true] at left ⊢
  obtain ⟨place, listed, holds⟩ := left
  rw [Bool.and_eq_true, List.isSuffixOf_iff_suffix] at holds
  refine ⟨place, listed, ?_⟩
  rw [Bool.and_eq_true, List.isSuffixOf_iff_suffix]
  exact ⟨below.trans holds.1, holds.2⟩

theorem removeTree_gone (removed : (removeTree stuck location disk).2 = true) (below : location <:+ other) :
    (removeTree stuck location disk).1.nodes other = none := by
  refine if_pos ⟨below, ?_⟩
  rw [removeTree, Bool.not_eq_true'] at removed
  rw [← Bool.not_eq_true]
  intro left
  rw [stays_above below left] at removed
  cases removed

theorem removeTree_taken (other : Location α) :
    (removeTree stuck location disk).1.nodes other = disk.nodes other ∨ (removeTree stuck location disk).1.nodes other = none := by
  rw [removeTree]
  by_cases taken : location <:+ other ∧ stays stuck disk.nodes other = false
  · exact Or.inr (if_pos taken)
  · exact Or.inl (if_neg taken)

theorem removeTree_apart (apart : ¬ location <:+ other) : (removeTree stuck location disk).1.nodes other = disk.nodes other :=
  if_neg fun taken => apart taken.1

theorem removeTree_rooted (below : StrictlyBelow top location) (rooted : Rooted disk.nodes) :
    Rooted (removeTree stuck location disk).1.nodes where
  root := by
    rw [removeTree_apart, rooted.root]
    intro none
    rw [List.suffix_nil] at none
    rw [none] at below
    exact below.2 (List.suffix_nil.1 below.1).symm
  parent value parent node present := by
    have kept : ¬ (location <:+ value :: parent ∧ stays stuck disk.nodes (value :: parent) = false) := by
      intro taken
      have gone : (removeTree stuck location disk).1.nodes (value :: parent) = none := if_pos taken
      rw [gone] at present
      cases present
    have before : disk.nodes (value :: parent) = some node := (if_neg kept).symm.trans present
    refine (if_neg ?_).trans (rooted.parent value parent node before)
    intro taken
    have inside := suffix_cons taken.1 value
    rw [not_and, Bool.not_eq_false] at kept
    have left := stays_above (List.suffix_cons value parent) (kept inside)
    rw [taken.2] at left
    cases left

theorem removeTree_changesBelow (below : StrictlyBelow top location) :
    ChangesBelow top disk (removeTree stuck location disk).1 where
  outside other apart := by
    refine removeTree_apart fun inside => apart ⟨below.1.trans inside, ?_⟩
    rintro rfl
    exact below.2 (below.1.eq_of_length_le inside.length_le).symm
  unlinked unlinked := by
    intro other inside absolute target present
    obtain same | gone := @removeTree_taken α β _ stuck location disk other
    · exact unlinked other inside absolute target (same ▸ present)
    · rw [gone] at present
      cases present

theorem removeNode_taken {fixed occupied : Bool} (other : Location α) :
    (removeNode fixed occupied location disk).1.nodes other = disk.nodes other ∨
      (other = location ∧ fixed = false ∧ occupied = false ∧ (removeNode fixed occupied location disk).1.nodes other = none) := by
  rw [removeNode]
  split
  · exact Or.inl rfl
  · rename_i free
    rw [Bool.or_eq_true, not_or, Bool.not_eq_true, Bool.not_eq_true] at free
    by_cases same : other = location
    · rw [same]
      exact Or.inr ⟨rfl, free.1, free.2, Function.update_self ..⟩
    · exact Or.inl (Function.update_of_ne same ..)

theorem removeNode_changesBelow {fixed occupied : Bool} (below : StrictlyBelow top location) :
    ChangesBelow top disk (removeNode fixed occupied location disk).1 where
  outside other apart := by
    obtain same | ⟨here, -⟩ := @removeNode_taken α β _ location disk fixed occupied other
    · exact same
    · rw [here] at apart
      exact absurd below apart
  unlinked unlinked := by
    intro other inside absolute target present
    obtain same | ⟨-, -, -, gone⟩ := @removeNode_taken α β _ location disk fixed occupied other
    · exact unlinked other inside absolute target (same ▸ present)
    · rw [gone] at present
      cases present

theorem removeNode_rooted {fixed occupied : Bool} (below : StrictlyBelow top location) (rooted : Rooted disk.nodes)
    (bare : occupied = false → ∀ value, disk.nodes (value :: location) = none) :
    Rooted (removeNode fixed occupied location disk).1.nodes where
  root := by
    obtain same | ⟨here, -⟩ := @removeNode_taken α β _ location disk fixed occupied []
    · rw [same, rooted.root]
    · rw [← here] at below
      exact absurd (List.suffix_nil.1 below.1).symm below.2
  parent value parent node present := by
    obtain same | ⟨-, -, -, gone⟩ := @removeNode_taken α β _ location disk fixed occupied (value :: parent)
    · rw [same] at present
      obtain kept | ⟨here, -, free, -⟩ := @removeNode_taken α β _ location disk fixed occupied parent
      · rw [kept]
        exact rooted.parent value parent node present
      · rw [here, bare free value] at present
        cases present
    · rw [gone] at present
      cases present

end Removal

/-! ## Disks from which nodes were taken -/

def Taken (nodes other : Nodes α β) : Prop := ∀ location, other location = nodes location ∨ other location = none

section Taken

omit [DecidableEq α]

variable {nodes other third : Nodes α β} {location : Location α} {node : Node α β}

theorem Taken.refl (nodes : Nodes α β) : Taken nodes nodes := fun _ => Or.inl rfl

theorem Taken.trans (first : Taken nodes other) (second : Taken other third) : Taken nodes third := by
  intro location
  obtain same | gone := second location
  · rw [same]
    exact first location
  · exact Or.inr gone

theorem Taken.present (taken : Taken nodes other) (present : other location = some node) : nodes location = some node := by
  obtain same | gone := taken location
  · rw [← same, present]
  · rw [gone] at present
    cases present

theorem Taken.grows (taken : Taken nodes other) : Grows other nodes := grows_of_kept fun _ _ => taken.present

theorem removeNode_takes [DecidableEq α] {disk : Disk α β} {fixed occupied : Bool} :
    Taken disk.nodes (removeNode fixed occupied location disk).1.nodes := fun other =>
  (removeNode_taken other).imp_right fun removed => removed.2.2.2

end Taken

end ReqPack.Data.FileSystem
