import ReqPack.Data.Bytes
import ReqPack.Data.EditDistance
import ReqPack.Data.Ordering

/-! # Did you mean

`package_search_query`: the first term of a prompt is compared with the names of a catalog.
The distance is computed with two rows of a table and kept as an `int`; among the names that
are near enough the nearest one is suggested.
-/

namespace ReqPack.Query

open ReqPack.Data
open ReqPack.Data.Ascii

/-! ## Distances -/

/-- One cell of the inner loop of `levenshtein_distance`; indices count from one. -/
def cellValue (left right : Bytes) (previous current : Nat → Nat) (leftIndex rightIndex : Nat) : Nat :=
  let substitutionCost := if left[leftIndex - 1]? = right[rightIndex - 1]? then 0 else 1
  min (min (previous rightIndex + 1) (current (rightIndex - 1) + 1)) (previous (rightIndex - 1) + substitutionCost)

/-- The inner loop over the row that is filled; what stood in it before is overwritten. -/
def fillRow (left right : Bytes) (previous current : Nat → Nat) (leftIndex : Nat) : Nat → Nat :=
  (List.range' 1 right.length).foldl
    (fun current rightIndex =>
      Function.update current rightIndex (cellValue left right previous current leftIndex rightIndex))
    (Function.update current 0 leftIndex)

/-- The outer loop; the two rows change places after each round. -/
def fillRows (left right : Bytes) (rows : (Nat → Nat) × (Nat → Nat)) (leftIndices : List Nat) :
    (Nat → Nat) × (Nat → Nat) :=
  leftIndices.foldl (fun rows leftIndex => (fillRow left right rows.1 rows.2 leftIndex, rows.1)) rows

def levenshteinDistance (left right : Bytes) : Nat :=
  if left.isEmpty then right.length
  else if right.isEmpty then left.length
  else (fillRows left right (id, fun _ => 0) (List.range' 1 left.length)).1 right.length

/-! ## Suggestions -/

/-- The fields of a `PackageInfo` that name it. -/
structure PackageInfo where
  name : Bytes := []
  packageId : Bytes := []
deriving DecidableEq, Repr

def displayNameForScore (info : PackageInfo) : Bytes := if info.name.isEmpty then info.packageId else info.name

/-- The loop of `package_search_terms_from_prompt`. -/
def termsFrom (current : Bytes) : Bytes → List Bytes
  | [] => if current.isEmpty then [] else [toLowerCopy current]
  | c :: rest =>
      if isSpace c then if current.isEmpty then termsFrom [] rest else toLowerCopy current :: termsFrom [] rest
      else termsFrom (current ++ [c]) rest

def packageSearchTermsFromPrompt (prompt : Bytes) : List Bytes := termsFrom [] prompt

/-- `static_cast<int>`. -/
def toInt (value : Nat) : Int := Int.bmod value (2 ^ 32)

def maxDistance (primary : Bytes) : Int := if primary.length ≤ 4 then 1 else 2

/-- Write the distance of a name into the map unless it has a smaller one. -/
def recordDistance (distances : List (Bytes × Int)) (candidate : Bytes) (distance : Int) : List (Bytes × Int) :=
  match distances.find? fun entry => entry.1 == candidate with
  | none => distances ++ [(candidate, distance)]
  | some existing =>
      if distance < existing.2 then
        distances.map fun entry => if entry.1 == candidate then (candidate, distance) else entry
      else distances

/-- The loop that fills the map `bestDistance`. -/
def bestDistances (primary : Bytes) (catalog : List PackageInfo) : List (Bytes × Int) :=
  catalog.foldl
    (fun distances info =>
      let candidate := toLowerCopy (displayNameForScore info)
      if candidate.isEmpty || candidate == primary then distances
      else
        let distance := toInt (levenshteinDistance primary candidate)
        if maxDistance primary < distance then distances else recordDistance distances candidate distance)
    []

/-- The loop over the map; before it the best distance is -1. -/
def chooseSuggestion (entries : List (Bytes × Int)) : Int × Bytes :=
  entries.foldl
    (fun chosen entry =>
      if chosen.1 < 0 || entry.2 < chosen.1 || (entry.2 == chosen.1 && entry.1 < chosen.2) then (entry.2, entry.1)
      else chosen)
    (-1, [])

/-- `package_search_did_you_mean_suggestion`; `iterate` is the order in which a map is gone
through. -/
def packageSearchDidYouMeanSuggestion (iterate : List (Bytes × Int) → List (Bytes × Int))
    (catalog : List PackageInfo) (prompt : Bytes) : Option Bytes :=
  match packageSearchTermsFromPrompt prompt with
  | [] => none
  | primary :: _ =>
      if catalog.isEmpty || primary.length < 2 then none
      else
        let distances := bestDistances primary catalog
        if distances.isEmpty then none else some (chooseSuggestion (iterate distances)).2

/-! ## The table -/

section Table

variable {left right : Bytes} {previous current : Nat → Nat} {leftIndex : Nat}

/-- The row of the table for a beginning of the first text. -/
def IsRow (left right : Bytes) (row : Nat) (cells : Nat → Nat) : Prop :=
  ∀ column ≤ right.length, cells column = distanceCell left right row column

theorem cellValue_eq {column : Nat} (rowInside : leftIndex < left.length) (columnInside : column < right.length)
    (above : IsRow left right leftIndex previous) (before : current column = distanceCell left right (leftIndex + 1) column) :
    cellValue left right previous current (leftIndex + 1) (column + 1) =
      distanceCell left right (leftIndex + 1) (column + 1) := by
  rw [distanceCell_succ rowInside columnInside, cellValue]
  simp only [Nat.add_sub_cancel, List.getElem?_eq_getElem rowInside, List.getElem?_eq_getElem columnInside,
    Option.some.injEq, before, above (column + 1) columnInside, above column (Nat.le_of_lt columnInside)]

/-- After a number of rounds of the inner loop the cells up to there are right. -/
theorem fillRow_cells (rowInside : leftIndex < left.length) (above : IsRow left right leftIndex previous) {count : Nat}
    (inside : count ≤ right.length) :
    ∀ column ≤ count, ((List.range' 1 count).foldl
      (fun current rightIndex =>
        Function.update current rightIndex (cellValue left right previous current (leftIndex + 1) rightIndex))
      (Function.update current 0 (leftIndex + 1))) column = distanceCell left right (leftIndex + 1) column := by
  induction count with
  | zero =>
      intro column first
      rw [Nat.le_zero.1 first, List.range'_zero, List.foldl_nil, Function.update_self, distanceCell_zero_column rowInside]
  | succ count ih =>
      have cells := ih (Nat.le_of_succ_le inside)
      intro column bound
      rw [List.range'_1_concat, List.foldl_concat, Nat.add_comm 1 count]
      by_cases last : column = count + 1
      · rw [last, Function.update_self]
        exact cellValue_eq rowInside inside above (cells count (Nat.le_refl _))
      · rw [Function.update_of_ne last]
        exact cells column (by omega)

theorem fillRow_row (rowInside : leftIndex < left.length) (above : IsRow left right leftIndex previous) :
    IsRow left right (leftIndex + 1) (fillRow left right previous current (leftIndex + 1)) :=
  fillRow_cells rowInside above (Nat.le_refl _)

/-- After a number of rounds of the outer loop the first row is that of as many letters. -/
theorem fillRows_row {count : Nat} (inside : count ≤ left.length) :
    IsRow left right count (fillRows left right (id, fun _ => 0) (List.range' 1 count)).1 := by
  induction count with
  | zero =>
      intro column bound
      exact (distanceCell_zero_row bound).symm
  | succ count ih =>
      rw [List.range'_1_concat, fillRows, List.foldl_concat, Nat.add_comm 1 count]
      exact fillRow_row inside (ih (Nat.le_of_succ_le inside))

theorem levenshteinDistance_eq (left right : Bytes) : levenshteinDistance left right = editDistance left right := by
  rw [levenshteinDistance]
  split
  · rename_i empty
    rw [List.isEmpty_iff.1 empty, editDistance_nil_left]
  · split
    · rename_i empty
      rw [List.isEmpty_iff.1 empty, editDistance_nil_right]
    · rw [← distanceCell_length]
      exact fillRows_row (Nat.le_refl _) right.length (Nat.le_refl _)

end Table

/-! ## What is near -/

section Nearness

variable {catalog : List PackageInfo} {primary name : Bytes} {distances : List (Bytes × Int)}

/-- The lower-cased name of a package of the catalog. -/
def Listed (catalog : List PackageInfo) (name : Bytes) : Prop :=
  ∃ info ∈ catalog, toLowerCopy (displayNameForScore info) = name

/-- A name that is different from a term and within the limit. -/
structure Near (catalog : List PackageInfo) (primary name : Bytes) : Prop where
  listed : Listed catalog name
  different : name ≠ primary
  within : (editDistance primary name : Int) ≤ maxDistance primary

/-- Among the names that are near the nearest one, and the smallest of several. -/
structure Nearest (catalog : List PackageInfo) (primary name : Bytes) : Prop where
  near : Near catalog primary name
  least : ∀ other, Near catalog primary other →
    editDistance primary name < editDistance primary other ∨
      (editDistance primary name = editDistance primary other ∧ name ≤ other)

/-- The distance as it is kept. -/
def keptDistance (primary name : Bytes) : Int := toInt (editDistance primary name)

/-- A name that passes the checks of the loop. -/
structure Admitted (primary name : Bytes) : Prop where
  named : name ≠ []
  different : name ≠ primary
  within : keptDistance primary name ≤ maxDistance primary

/-- A name that goes into the map. -/
structure Accepted (catalog : List PackageInfo) (primary name : Bytes) : Prop extends Admitted primary name where
  listed : Listed catalog name

/-- A name that goes into the map although it is not near. -/
structure Misjudged (catalog : List PackageInfo) (primary name : Bytes) : Prop where
  accepted : Accepted catalog primary name
  far : maxDistance primary < editDistance primary name

theorem toInt_of_small {value : Nat} (small : value < 2 ^ 31) : toInt value = value := by
  apply Int.bmod_eq_of_le
  · omega
  · omega

theorem Near.kept (near : Near catalog primary name) : keptDistance primary name = editDistance primary name := by
  have small := near.within
  have most : maxDistance primary ≤ 2 := by
    rw [maxDistance]
    split <;> decide
  exact toInt_of_small (by omega)

theorem Near.named (near : Near catalog primary name) (long : 2 ≤ primary.length) : name ≠ [] := by
  intro empty
  have within := near.within
  rw [empty, editDistance_nil_right, maxDistance] at within
  split at within <;> omega

theorem Near.accepted (near : Near catalog primary name) (long : 2 ≤ primary.length) :
    Accepted catalog primary name := by
  refine ⟨⟨near.named long, near.different, ?_⟩, near.listed⟩
  rw [near.kept]
  exact near.within

theorem Accepted.near_or_misjudged (accepted : Accepted catalog primary name) :
    Near catalog primary name ∨ Misjudged catalog primary name := by
  by_cases within : (editDistance primary name : Int) ≤ maxDistance primary
  · exact Or.inl ⟨accepted.listed, accepted.different, within⟩
  · exact Or.inr ⟨accepted, by omega⟩

/-- What is written into the map is never changed. -/
theorem recordDistance_eq (kept : ∀ entry ∈ distances, entry.2 = keptDistance primary entry.1) :
    recordDistance distances name (keptDistance primary name) =
      if name ∈ distances.map Prod.fst then distances else distances ++ [(name, keptDistance primary name)] := by
  rw [recordDistance]
  split
  · rename_i absent
    rw [if_neg]
    intro member
    obtain ⟨entry, listed, same⟩ := List.mem_map.1 member
    have different := List.find?_eq_none.1 absent entry listed
    exact different (by rw [beq_iff_eq, same])
  · rename_i existing found
    have same : existing.1 = name := by simpa using List.find?_some found
    have listed := List.mem_of_find?_eq_some found
    rw [if_neg, if_pos (List.mem_map.2 ⟨existing, listed, same⟩)]
    rw [kept existing listed, same]
    exact Int.lt_irrefl _

theorem listed_concat {info : PackageInfo} :
    Listed (catalog ++ [info]) name ↔ Listed catalog name ∨ toLowerCopy (displayNameForScore info) = name := by
  simp only [Listed, List.mem_append, List.mem_singleton, or_and_right, exists_or, exists_eq_left]

theorem bestDistances_concat (info : PackageInfo) :
    (Admitted primary (toLowerCopy (displayNameForScore info)) ∧
      bestDistances primary (catalog ++ [info]) =
        recordDistance (bestDistances primary catalog) (toLowerCopy (displayNameForScore info))
          (keptDistance primary (toLowerCopy (displayNameForScore info)))) ∨
      (¬ Admitted primary (toLowerCopy (displayNameForScore info)) ∧
        bestDistances primary (catalog ++ [info]) = bestDistances primary catalog) := by
  rw [bestDistances, List.foldl_concat, ← bestDistances]
  generalize toLowerCopy (displayNameForScore info) = candidate
  have kept : toInt (levenshteinDistance primary candidate) = keptDistance primary candidate := by
    rw [levenshteinDistance_eq, keptDistance]
  simp only [kept]
  by_cases skipped : (candidate.isEmpty || candidate == primary) = true
  · rw [if_pos skipped]
    refine Or.inr ⟨?_, rfl⟩
    intro admitted
    rw [Bool.or_eq_true, List.isEmpty_iff, beq_iff_eq] at skipped
    exact skipped.elim admitted.named admitted.different
  · rw [if_neg skipped]
    rw [Bool.or_eq_true, List.isEmpty_iff, beq_iff_eq, not_or] at skipped
    by_cases far : maxDistance primary < keptDistance primary candidate
    · refine Or.inr ⟨?_, if_pos far⟩
      intro admitted
      exact absurd admitted.within (by omega)
    · exact Or.inl ⟨⟨skipped.1, skipped.2, by omega⟩, if_neg far⟩

/-- The map holds the accepted names with their distances. -/
theorem mem_bestDistances {entry : Bytes × Int} :
    entry ∈ bestDistances primary catalog ↔
      Accepted catalog primary entry.1 ∧ entry.2 = keptDistance primary entry.1 := by
  induction catalog using List.reverseRecOn generalizing entry with
  | nil =>
      apply Iff.intro
      · intro member
        cases member
      · intro both
        obtain ⟨info, member, -⟩ := both.1.listed
        cases member
  | append_singleton catalog info ih =>
      have kept : ∀ entry ∈ bestDistances primary catalog, entry.2 = keptDistance primary entry.1 :=
        fun entry member => (ih.1 member).2
      have known : toLowerCopy (displayNameForScore info) ∈ (bestDistances primary catalog).map Prod.fst →
          Accepted catalog primary (toLowerCopy (displayNameForScore info)) := by
        intro member
        obtain ⟨other, listed, same⟩ := List.mem_map.1 member
        rw [← same]
        exact (ih.1 listed).1
      have larger : ∀ {name}, Accepted catalog primary name → Accepted (catalog ++ [info]) primary name :=
        fun accepted => ⟨accepted.toAdmitted, listed_concat.2 (Or.inl accepted.listed)⟩
      obtain ⟨admitted, grown⟩ | ⟨refused, same⟩ := @bestDistances_concat catalog primary info
      · rw [grown, recordDistance_eq kept]
        split
        · rename_i member
          rw [ih]
          refine and_congr_left fun _ => ⟨larger, ?_⟩
          intro accepted
          obtain old | own := listed_concat.1 accepted.listed
          · exact ⟨accepted.toAdmitted, old⟩
          · rw [← own]
            exact known member
        · rw [List.mem_append, List.mem_singleton, ih]
          apply Iff.intro
          · intro either
            obtain old | own := either
            · exact ⟨larger old.1, old.2⟩
            · rw [own]
              refine ⟨⟨admitted, listed_concat.2 (Or.inr rfl)⟩, ?_⟩
              simp only
          · intro both
            obtain old | own := listed_concat.1 both.1.listed
            · exact Or.inl ⟨⟨both.1.toAdmitted, old⟩, both.2⟩
            · refine Or.inr (Prod.ext own.symm ?_)
              simp only [both.2, own]
      · rw [same, ih]
        refine and_congr_left fun _ => ⟨larger, ?_⟩
        intro accepted
        obtain old | own := listed_concat.1 accepted.listed
        · exact ⟨accepted.toAdmitted, old⟩
        · rw [own] at refused
          exact absurd accepted.toAdmitted refused

theorem Accepted.mem_bestDistances (accepted : Accepted catalog primary name) :
    (name, keptDistance primary name) ∈ bestDistances primary catalog := by
  refine Query.mem_bestDistances.2 ⟨accepted, ?_⟩
  simp only

/-- An entry that the loop over the map prefers. -/
def Precedes (left right : Bytes × Int) : Prop := left.2 < right.2 ∨ (left.2 = right.2 ∧ left.1 ≤ right.1)

/-- Without negative distances the loop finds the first entry by distance and name. -/
theorem chooseSuggestion_least {entries : List (Bytes × Int)} (counted : ∀ entry ∈ entries, 0 ≤ entry.2)
    (present : entries ≠ []) :
    ∃ chosen ∈ entries, chooseSuggestion entries = (chosen.2, chosen.1) ∧ ∀ entry ∈ entries, Precedes chosen entry := by
  induction entries using List.reverseRecOn with
  | nil => exact absurd rfl present
  | append_singleton entries entry ih =>
      rw [List.forall_mem_append, List.forall_mem_singleton] at counted
      rw [chooseSuggestion, List.foldl_concat, ← chooseSuggestion]
      by_cases first : entries = []
      · refine ⟨entry, by simp, ?_, ?_⟩
        · rw [first]
          rfl
        · rw [first]
          intro other member
          rw [List.nil_append, List.mem_singleton] at member
          rw [member]
          exact Or.inr ⟨rfl, Std.le_refl _⟩
      · obtain ⟨chosen, member, same, least⟩ := ih counted.1 first
        have positive := counted.1 chosen member
        rw [same]
        by_cases better : entry.2 < chosen.2 ∨ (entry.2 = chosen.2 ∧ entry.1 < chosen.1)
        · refine ⟨entry, by simp, ?_, ?_⟩
          · apply if_pos
            simp only [Bool.or_eq_true, Bool.and_eq_true, decide_eq_true_eq, beq_iff_eq]
            tauto
          · rw [List.forall_mem_append, List.forall_mem_singleton]
            refine ⟨?_, Or.inr ⟨rfl, Std.le_refl _⟩⟩
            intro other listed
            obtain below | ⟨level, before⟩ := least other listed
            · obtain less | ⟨equal, _⟩ := better
              · exact Or.inl (by omega)
              · exact Or.inl (by omega)
            · obtain less | ⟨equal, earlier⟩ := better
              · exact Or.inl (by omega)
              · exact Or.inr ⟨by omega, Std.le_of_lt (Std.lt_of_lt_of_le earlier before)⟩
        · refine ⟨chosen, by simp [member], ?_, ?_⟩
          · apply if_neg
            simp only [Bool.or_eq_true, Bool.and_eq_true, decide_eq_true_eq, beq_iff_eq]
            rw [not_or] at better ⊢
            exact ⟨not_or.2 ⟨by omega, better.1⟩, better.2⟩
          · rw [List.forall_mem_append, List.forall_mem_singleton]
            refine ⟨least, ?_⟩
            rw [not_or, not_and, Int.not_lt, Std.not_lt] at better
            obtain equal | less := better.1.eq_or_lt
            · exact Or.inr ⟨equal, better.2 equal.symm⟩
            · exact Or.inl less

/-- A negative distance at the end is always taken. -/
theorem chooseSuggestion_negative {entries : List (Bytes × Int)} {entry : Bytes × Int} (negative : entry.2 < 0) :
    chooseSuggestion (entries ++ [entry]) = (entry.2, entry.1) := by
  rw [chooseSuggestion, List.foldl_concat, ← chooseSuggestion]
  apply if_pos
  simp only [Bool.or_eq_true, Bool.and_eq_true, decide_eq_true_eq, beq_iff_eq]
  by_cases before : (chooseSuggestion entries).1 < 0
  · exact Or.inl (Or.inl before)
  · exact Or.inl (Or.inr (by omega))

end Nearness

/-! ## The suggestion -/

/-- The name to suggest. -/
def Meant (catalog : List PackageInfo) (prompt name : Bytes) : Prop :=
  ∃ primary, (packageSearchTermsFromPrompt prompt).head? = some primary ∧ 2 ≤ primary.length ∧
    Nearest catalog primary name

/-- There is a name to suggest. -/
def Suggestible (catalog : List PackageInfo) (prompt : Bytes) : Prop :=
  ∃ primary, (packageSearchTermsFromPrompt prompt).head? = some primary ∧ 2 ≤ primary.length ∧
    ∃ name, Near catalog primary name

/-- Whatever the order of the catalog and the order in which maps are gone through, the nearest
name is suggested, and nothing if there is none. -/
def SuggestsNearest (catalog : List PackageInfo) (prompt : Bytes) : Prop :=
  ∀ (iterate : List (Bytes × Int) → List (Bytes × Int)) (order : List PackageInfo),
    (∀ entries, (iterate entries).Perm entries) → order.Perm catalog →
      (∀ name, packageSearchDidYouMeanSuggestion iterate order prompt = some name ↔ Meant catalog prompt name) ∧
        (packageSearchDidYouMeanSuggestion iterate order prompt = none ↔ ¬ Suggestible catalog prompt)

/-- The kept distance of a misjudged name is not negative, and a near name goes before it. -/
structure Outranked (catalog : List PackageInfo) (primary name : Bytes) : Prop where
  counted : 0 ≤ keptDistance primary name
  behind : ∃ near, Near catalog primary near ∧
    ((editDistance primary near : Int) < keptDistance primary name ∨
      ((editDistance primary near : Int) = keptDistance primary name ∧ near ≤ name))

section Suggested

variable {iterate : List (Bytes × Int) → List (Bytes × Int)} {catalog order : List PackageInfo}
variable {prompt primary name other : Bytes}

theorem Nearest.unique (first : Nearest catalog primary name) (second : Nearest catalog primary other) :
    name = other := by
  have forward := first.least other second.near
  have backward := second.least name first.near
  obtain less | ⟨equal, before⟩ := forward
  · obtain less' | ⟨equal', _⟩ := backward <;> omega
  · obtain less' | ⟨_, after⟩ := backward
    · omega
    · exact Std.le_antisymm before after

theorem listed_of_perm (perm : order.Perm catalog) : Listed order = Listed catalog := by
  funext name
  exact propext ⟨fun ⟨info, member, same⟩ => ⟨info, perm.mem_iff.1 member, same⟩,
    fun ⟨info, member, same⟩ => ⟨info, perm.mem_iff.2 member, same⟩⟩

theorem near_of_perm (perm : order.Perm catalog) : Near order primary name ↔ Near catalog primary name := by
  have same := listed_of_perm perm
  apply Iff.intro
  · intro near
    exact ⟨same ▸ near.listed, near.different, near.within⟩
  · intro near
    exact ⟨same ▸ near.listed, near.different, near.within⟩

theorem nearest_of_perm (perm : order.Perm catalog) : Nearest order primary name ↔ Nearest catalog primary name := by
  apply Iff.intro
  · intro nearest
    exact ⟨(near_of_perm perm).1 nearest.near, fun other near => nearest.least other ((near_of_perm perm).2 near)⟩
  · intro nearest
    exact ⟨(near_of_perm perm).2 nearest.near, fun other near => nearest.least other ((near_of_perm perm).1 near)⟩

theorem outranked_of_perm (perm : order.Perm catalog) (outranked : Outranked catalog primary name) :
    Outranked order primary name := by
  obtain ⟨near, isNear, before⟩ := outranked.behind
  exact ⟨outranked.counted, near, (near_of_perm perm).2 isNear, before⟩

theorem misjudged_of_perm (perm : order.Perm catalog) (misjudged : Misjudged order primary name) :
    Misjudged catalog primary name :=
  ⟨⟨misjudged.accepted.toAdmitted, listed_of_perm perm ▸ misjudged.accepted.listed⟩, misjudged.far⟩

theorem Misjudged.not_near (misjudged : Misjudged catalog primary name) : ¬ Near catalog primary name := by
  intro near
  have far := misjudged.far
  have within := near.within
  omega

theorem suggestion_of_term (first : (packageSearchTermsFromPrompt prompt).head? = some primary)
    (long : 2 ≤ primary.length) :
    packageSearchDidYouMeanSuggestion iterate catalog prompt =
      if bestDistances primary catalog = [] then none
      else some (chooseSuggestion (iterate (bestDistances primary catalog))).2 := by
  rw [packageSearchDidYouMeanSuggestion]
  split
  · rename_i terms
    rw [terms] at first
    cases first
  · rename_i term rest terms
    rw [terms, List.head?_cons, Option.some.injEq] at first
    subst first
    cases catalog with
    | nil => rfl
    | cons info catalog =>
        rw [if_neg]
        · simp only [List.isEmpty_iff]
        · rw [List.isEmpty_cons, Bool.false_or, decide_eq_true_eq]
          omega

theorem suggestion_of_no_term
    (short : ∀ primary, (packageSearchTermsFromPrompt prompt).head? = some primary → primary.length < 2) :
    packageSearchDidYouMeanSuggestion iterate catalog prompt = none := by
  rw [packageSearchDidYouMeanSuggestion]
  split
  · rfl
  · rename_i term rest terms
    rw [terms] at short
    have short := short term rfl
    rw [if_pos]
    simp [short]

/-- Where misjudged names are outranked, the nearest name is the one that the loop finds. -/
theorem chosen_nearest {entries : List (Bytes × Int)} (perm : entries.Perm (bestDistances primary catalog))
    (long : 2 ≤ primary.length) (present : bestDistances primary catalog ≠ [])
    (outranked : ∀ name, Misjudged catalog primary name → Outranked catalog primary name) :
    Nearest catalog primary (chooseSuggestion entries).2 := by
  have held : ∀ {entry}, entry ∈ entries ↔
      Accepted catalog primary entry.1 ∧ entry.2 = keptDistance primary entry.1 := by
    intro entry
    rw [perm.mem_iff, mem_bestDistances]
  have counted : ∀ entry ∈ entries, 0 ≤ entry.2 := by
    intro entry member
    obtain ⟨accepted, same⟩ := held.1 member
    rw [same]
    obtain near | misjudged := accepted.near_or_misjudged
    · rw [near.kept]
      omega
    · exact (outranked _ misjudged).counted
  have some : entries ≠ [] := by
    intro empty
    rw [empty] at perm
    exact present perm.nil_eq.symm
  obtain ⟨chosen, member, same, least⟩ := chooseSuggestion_least counted some
  obtain ⟨accepted, kept⟩ := held.1 member
  have before : ∀ other, Near catalog primary other →
      keptDistance primary chosen.1 < editDistance primary other ∨
        (keptDistance primary chosen.1 = editDistance primary other ∧ chosen.1 ≤ other) := by
    intro other near
    have listed := perm.mem_iff.2 (near.accepted long).mem_bestDistances
    have precedes := least _ listed
    rwa [Precedes, kept, near.kept] at precedes
  rw [same]
  obtain near | misjudged := accepted.near_or_misjudged
  · refine ⟨near, ?_⟩
    intro other isNear
    have precedes := before other isNear
    rw [near.kept, Int.ofNat_lt, Int.ofNat_inj] at precedes
    exact precedes
  · -- A misjudged name stands behind a near one, which the loop would have found.
    obtain ⟨near, isNear, less | ⟨equal, earlier⟩⟩ := (outranked _ misjudged).behind
    · have precedes := before near isNear
      omega
    · obtain less | ⟨_, later⟩ := before near isNear
      · omega
      · rw [Std.le_antisymm earlier later] at isNear
        exact absurd isNear misjudged.not_near

theorem suggestible_iff_present (long : 2 ≤ primary.length)
    (outranked : ∀ name, Misjudged catalog primary name → Outranked catalog primary name) :
    (∃ name, Near catalog primary name) ↔ bestDistances primary catalog ≠ [] := by
  apply Iff.intro
  · intro ⟨name, near⟩ empty
    have member := (near.accepted long).mem_bestDistances
    rw [empty] at member
    cases member
  · intro present
    exact ⟨_, (chosen_nearest (List.Perm.refl _) long present outranked).near⟩

/-- One order of the catalog and of the map. -/
theorem suggestion_nearest (lawful : ∀ entries, (iterate entries).Perm entries)
    (outranked : ∀ primary, (packageSearchTermsFromPrompt prompt).head? = some primary → 2 ≤ primary.length →
      ∀ name, Misjudged catalog primary name → Outranked catalog primary name) :
    (∀ name, packageSearchDidYouMeanSuggestion iterate catalog prompt = some name ↔ Meant catalog prompt name) ∧
      (packageSearchDidYouMeanSuggestion iterate catalog prompt = none ↔ ¬ Suggestible catalog prompt) := by
  by_cases term : ∃ primary, (packageSearchTermsFromPrompt prompt).head? = some primary ∧ 2 ≤ primary.length
  · obtain ⟨primary, first, long⟩ := term
    have meant : ∀ name, Meant catalog prompt name ↔ Nearest catalog primary name := by
      intro name
      simp [Meant, first, long]
    have suggestible : Suggestible catalog prompt ↔ bestDistances primary catalog ≠ [] := by
      rw [← suggestible_iff_present long (outranked primary first long)]
      simp [Suggestible, first, long]
    simp only [suggestion_of_term first long, meant, suggestible]
    split
    · rename_i empty
      simp only [empty, reduceCtorEq, false_iff, ne_eq, not_true_eq_false, not_false_eq_true, and_true]
      intro name nearest
      exact suggestible.1 ⟨primary, first, long, name, nearest.near⟩ empty
    · rename_i present
      have nearest := chosen_nearest (lawful _) long present (outranked primary first long)
      simp only [present, reduceCtorEq, ne_eq, not_false_eq_true, not_true_eq_false, iff_self, and_true,
        Option.some.injEq]
      intro name
      apply Iff.intro
      · intro same
        rw [← same]
        exact nearest
      · intro other
        exact nearest.unique other
  · have none := @suggestion_of_no_term iterate catalog prompt (by
      intro primary first
      by_contra long
      exact term ⟨primary, first, by omega⟩)
    rw [none]
    refine ⟨?_, ?_⟩
    · intro name
      simp only [reduceCtorEq, false_iff]
      intro ⟨primary, first, long, _⟩
      exact term ⟨primary, first, long⟩
    · simp only [true_iff]
      intro ⟨primary, first, long, _⟩
      exact term ⟨primary, first, long⟩

/-- If the nearest name is suggested, misjudged names are outranked: one with a negative distance
would be suggested when the map ends with it, and any other one needs a near name before it. -/
theorem SuggestsNearest.outranked (suggests : SuggestsNearest catalog prompt)
    (first : (packageSearchTermsFromPrompt prompt).head? = some primary) (long : 2 ≤ primary.length)
    (misjudged : Misjudged catalog primary name) : Outranked catalog primary name := by
  have nearest : ∀ iterate : List (Bytes × Int) → List (Bytes × Int), (∀ entries, (iterate entries).Perm entries) →
      Nearest catalog primary (chooseSuggestion (iterate (bestDistances primary catalog))).2 := by
    intro iterate lawful
    have suggestion := ((suggests iterate catalog lawful (List.Perm.refl _)).1
      (chooseSuggestion (iterate (bestDistances primary catalog))).2).1
    rw [suggestion_of_term first long, if_neg (List.ne_nil_of_mem misjudged.accepted.mem_bestDistances)] at suggestion
    obtain ⟨term, same, -, nearest⟩ := suggestion rfl
    rw [first, Option.some.injEq] at same
    rwa [← same] at nearest
  have counted : ∀ other, Misjudged catalog primary other → 0 ≤ keptDistance primary other := by
    intro other misjudged
    by_contra negative
    have last := nearest _ (movedLast_perm misjudged.accepted.mem_bestDistances)
    rw [movedLast_self, chooseSuggestion_negative (by omega)] at last
    exact misjudged.not_near last.near
  refine ⟨counted name misjudged, ?_⟩
  have listed := misjudged.accepted.mem_bestDistances
  have positive : ∀ entry ∈ bestDistances primary catalog, 0 ≤ entry.2 := by
    intro entry member
    obtain ⟨accepted, same⟩ := mem_bestDistances.1 member
    rw [same]
    obtain near | wrong := accepted.near_or_misjudged
    · rw [near.kept]
      omega
    · exact counted _ wrong
  obtain ⟨chosen, member, same, least⟩ := chooseSuggestion_least positive (List.ne_nil_of_mem listed)
  have near := (nearest id List.Perm.refl).near
  rw [id, same] at near
  have precedes := least _ listed
  simp only [Precedes, (mem_bestDistances.1 member).2, near.kept] at precedes
  exact ⟨chosen.1, near, precedes⟩

end Suggested

/-- The two rows compute the edit distance, and the nearest name is suggested if and only if the
names that are misjudged, because their distance does not fit the `int` it is kept in, are
outranked by one that is near. -/
theorem did_you_mean_nearest_iff (left right : Bytes) (catalog : List PackageInfo) (prompt : Bytes) :
    levenshteinDistance left right = editDistance left right ∧
      (SuggestsNearest catalog prompt ↔
        ∀ primary, (packageSearchTermsFromPrompt prompt).head? = some primary → 2 ≤ primary.length →
          ∀ name, Misjudged catalog primary name → Outranked catalog primary name) := by
  refine ⟨levenshteinDistance_eq left right, ?_⟩
  apply Iff.intro
  · intro suggests primary first long name misjudged
    exact suggests.outranked first long misjudged
  · intro outranked iterate order lawful perm
    have meant : ∀ name, Meant order prompt name ↔ Meant catalog prompt name := by
      intro name
      simp only [Meant, nearest_of_perm perm]
    have suggestible : Suggestible order prompt ↔ Suggestible catalog prompt := by
      simp only [Suggestible, near_of_perm perm]
    simp only [← meant, ← suggestible]
    apply suggestion_nearest lawful
    intro primary first long name misjudged
    exact outranked_of_perm perm (outranked primary first long name (misjudged_of_perm perm misjudged))

/-! ## A very long name -/

section LongName

variable {count : Nat}

theorem editDistance_long_name : editDistance [97, 97] (List.replicate (count + 2) (97 : UInt8)) = count := by
  have split : List.replicate (count + 2) (97 : UInt8) = [97, 97] ++ List.replicate count 97 := by
    rw [Nat.add_comm, ← List.replicate_append_replicate]
    rfl
  rw [split, editDistance_append, List.length_replicate]

/-- The distance of a name with two GiB more than the term does not fit an `int`. -/
theorem keptDistance_long_name (long : count = 2 ^ 31) :
    keptDistance [97, 97] (List.replicate (count + 2) (97 : UInt8)) = -2 ^ 31 := by
  rw [keptDistance, editDistance_long_name, long]
  decide +kernel

theorem misjudged_long_name (long : count = 2 ^ 31) :
    Misjudged [⟨List.replicate (count + 2) 97, []⟩] [97, 97] (List.replicate (count + 2) 97) := by
  have limit : maxDistance [97, 97] = 1 := rfl
  refine ⟨⟨⟨?_, ?_, ?_⟩, _, List.mem_singleton_self _, ?_⟩, ?_⟩
  · exact List.cons_ne_nil _ _
  · intro same
    have lengths := congrArg List.length same
    rw [List.length_replicate] at lengths
    have short : count + 2 = 2 := lengths
    omega
  · rw [keptDistance_long_name long, limit]
    decide
  · exact List.map_replicate
  · rw [editDistance_long_name, limit]
    omega

theorem not_suggestsNearest_long_name (long : count = 2 ^ 31) :
    ¬ SuggestsNearest [⟨List.replicate (count + 2) 97, []⟩] [97, 97] := by
  intro suggests
  have terms : (packageSearchTermsFromPrompt [97, 97]).head? = some [97, 97] := by decide
  have outranked := suggests.outranked terms (Nat.le_refl _) (misjudged_long_name long)
  have counted := outranked.counted
  rw [keptDistance_long_name long] at counted
  exact absurd counted (by decide)

end LongName

/-- It is suggested. -/
theorem long_name_is_suggested : ¬ SuggestsNearest [⟨List.replicate (2 ^ 31 + 2) 97, []⟩] [97, 97] :=
  @not_suggestsNearest_long_name (2 ^ 31) rfl

end ReqPack.Query
