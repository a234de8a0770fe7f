import Mathlib.Data.List.Infix

/-! # The longest end of a list that fits

Logs and caches that drop their oldest entries keep the longest suffix within their
limits.  When a list that fits still fits without its last entry, trimming after each
new entry comes to trimming once at the end.
-/

namespace ReqPack.Data

universe u

variable {α : Type u}

def newest (fits : List α → Bool) : List α → List α
  | [] => []
  | first :: rest => if fits (first :: rest) then first :: rest else newest fits rest

section Newest

variable {fits : List α → Bool} {entries kept : List α}

theorem newest_suffix (fits : List α → Bool) (entries : List α) : newest fits entries <:+ entries := by
  induction entries with
  | nil => exact List.suffix_refl []
  | cons first rest ih =>
      rw [newest]
      split
      · exact List.suffix_refl _
      · exact ih.trans (List.suffix_cons first rest)

theorem newest_fits (empty : fits [] = true) (entries : List α) : fits (newest fits entries) = true := by
  induction entries with
  | nil => exact empty
  | cons first rest ih =>
      rw [newest]
      split
      · assumption
      · exact ih

theorem newest_maximal (suffix : kept <:+ entries) (fit : fits kept = true) : kept <:+ newest fits entries := by
  induction entries with
  | nil => exact suffix
  | cons first rest ih =>
      rw [newest]
      split
      · exact suffix
      · rename_i broken
        rcases List.suffix_cons_iff.mp suffix with same | behind
        · rw [same] at fit
          exact absurd fit broken
        · exact ih behind

theorem newest_of_fits (fit : fits entries = true) : newest fits entries = entries :=
  (newest_suffix fits entries).eq_of_length_le (newest_maximal (List.suffix_refl entries) fit).length_le

/-- The newest entries are the suffix of the greatest length that fits. -/
theorem newest_eq_drop {count : Nat} (inside : count ≤ entries.length)
    (bounded : ∀ kept, kept <:+ entries → (fits kept = true ↔ kept.length ≤ count)) :
    newest fits entries = entries.drop (entries.length - count) := by
  have empty : fits [] = true := (bounded [] (List.nil_suffix)).mpr (Nat.zero_le count)
  have dropped : entries.drop (entries.length - count) <:+ entries := List.drop_suffix _ _
  have size : (entries.drop (entries.length - count)).length = count := by
    rw [List.length_drop]
    omega
  have long : entries.drop (entries.length - count) <:+ newest fits entries :=
    newest_maximal dropped ((bounded _ dropped).mpr (Nat.le_of_eq size))
  have short := (bounded _ (newest_suffix fits entries)).mp (newest_fits empty entries)
  exact (long.eq_of_length_le (by omega)).symm

/-- Trimming the trimmed entries with a new one is trimming them all. -/
theorem newest_concat (empty : fits [] = true)
    (earlier : ∀ older entry, fits (older ++ [entry]) = true → fits older = true) (entries : List α) (entry : α) :
    newest fits (newest fits entries ++ [entry]) = newest fits (entries ++ [entry]) := by
  have early : newest fits entries ++ [entry] <:+ entries ++ [entry] := by
    obtain ⟨older, split⟩ := newest_suffix fits entries
    exact ⟨older, by rw [← List.append_assoc, split]⟩
  have forward : newest fits (newest fits entries ++ [entry]) <:+ newest fits (entries ++ [entry]) :=
    newest_maximal ((newest_suffix fits _).trans early) (newest_fits empty _)
  have inside : newest fits (entries ++ [entry]) <:+ newest fits entries ++ [entry] := by
    rcases List.suffix_concat_iff.mp (newest_suffix fits (entries ++ [entry])) with nothing | ⟨older, same, behind⟩
    · rw [nothing]
      exact List.nil_suffix
    · have fit : fits (older ++ [entry]) = true := by
        rw [← same]
        exact newest_fits empty _
      obtain ⟨dropped, split⟩ := newest_maximal behind (earlier older entry fit)
      rw [same]
      exact ⟨dropped, by rw [← split, List.append_assoc]⟩
  have backward := newest_maximal inside (newest_fits empty _)
  exact forward.eq_of_length_le backward.length_le

end Newest

end ReqPack.Data
