import ReqPack.Data.FileBelow

/-! # The status of a path

Why a path leads nowhere, and which paths lead to the same node: what stands at the end of a
path is decided by the place it names, whatever links there are on the way.
-/

namespace ReqPack.Data.FileSystem

universe u v

variable {α : Type u} {β : Type v}

/-- What `stat` reports of a path that leads nowhere. -/
inductive Failure
  /-- `ENOENT` -/
  | absent
  /-- `ENOTDIR` -/
  | notDirectory
  /-- `ELOOP` -/
  | tooManyLinks
deriving DecidableEq, Repr

def failureParts (nodes : Nodes α β) (again : Location α → List (Part α) → Option Failure) :
    Location α → List (Part α) → Option Failure
  | _, [] => none
  | location, .here :: rest => failureParts nodes again location rest
  | location, .up :: rest => failureParts nodes again location.tail rest
  | location, .name value :: rest =>
      match nodes (value :: location) with
      | none => some .absent
      | some .directory => failureParts nodes again (value :: location) rest
      | some (.file _) => if rest.isEmpty then none else some .notDirectory
      | some (.link absolute target) => again (if absolute then [] else location) (target ++ rest)

/-- The reason why the walk that follows links to the end does not find anything. -/
def failure (nodes : Nodes α β) : Nat → Location α → List (Part α) → Option Failure
  | 0 => failureParts nodes fun _ _ => some .tooManyLinks
  | links + 1 => failureParts nodes (failure nodes links)

section Status

variable {nodes : Nodes α β} {location place : Location α} {parts : List (Part α)} {links : Nat}

theorem failureParts_eq_none_iff {reason : Location α → List (Part α) → Option Failure}
    {again : Location α → List (Part α) → Walk α}
    (next : ∀ location parts, reason location parts = none ↔ ∃ place, again location parts = .found place) :
    failureParts nodes reason location parts = none ↔ ∃ place, walkParts nodes true again location parts = .found place := by
  induction parts generalizing location with
  | nil => exact iff_of_true rfl ⟨location, rfl⟩
  | cons part rest ih =>
      cases part with
      | here => exact ih
      | up => exact ih
      | name value =>
          rw [failureParts, walkParts]
          cases node : nodes (value :: location) with
          | none =>
              simp only [reduceCtorEq, false_iff]
              rintro ⟨place, found⟩
              split at found <;> cases found
          | some present =>
              cases present with
              | directory => exact ih
              | file content =>
                  cases rest with
                  | nil => exact iff_of_true rfl ⟨_, rfl⟩
                  | cons => exact iff_of_false (by simp) (by simp)
              | link absolute target =>
                  simp only [Bool.not_true, Bool.and_false, Bool.false_eq_true, if_false]
                  exact next _ _

theorem failure_eq_none_iff :
    failure nodes links location parts = none ↔ ∃ place, walk nodes true links location parts = .found place := by
  induction links generalizing location parts with
  | zero => exact failureParts_eq_none_iff fun _ _ => iff_of_false (by simp) (by simp)
  | succ links ih => exact failureParts_eq_none_iff fun _ _ => ih

end Status

/-! ## Paths to one place -/

section Places

variable {nodes : Nodes α β} {follow : Bool} {location place goal : Location α} {parts rest target : List (Part α)}
variable {links more : Nat} {absolute : Bool}

theorem walkParts_more {again later : Location α → List (Part α) → Walk α}
    (next : ∀ location parts, again location parts = .found place → later location parts = .found place)
    (found : walkParts nodes follow again location parts = .found place) :
    walkParts nodes follow later location parts = .found place := by
  induction parts generalizing location with
  | nil => exact found
  | cons part rest ih =>
      cases part with
      | here => exact ih found
      | up => exact ih found
      | name value =>
          rw [walkParts] at found ⊢
          cases node : nodes (value :: location) with
          | none =>
              rw [node] at found
              exact found
          | some present =>
              rw [node] at found
              cases present with
              | directory => exact ih found
              | file content => exact found
              | link absolute target =>
                  simp only at found ⊢
                  split
                  · next last => rwa [if_pos last] at found
                  · next last =>
                      rw [if_neg last] at found
                      exact next _ _ found

theorem walk_more (enough : links ≤ more) (found : walk nodes follow links location parts = .found place) :
    walk nodes follow more location parts = .found place := by
  induction links generalizing more location parts with
  | zero =>
      cases more with
      | zero => exact found
      | succ more => exact walkParts_more (fun _ _ failed => by cases failed) found
  | succ links ih =>
      cases more with
      | zero => exact absurd enough (Nat.not_succ_le_zero links)
      | succ more => exact walkParts_more (fun _ _ => ih (Nat.succ_le_succ_iff.1 enough)) found

theorem walkParts_link {again later : Location α → List (Part α) → Walk α} (rooted : Rooted nodes)
    (start : nodes location = some .directory) (node : nodes place = some (.link absolute target))
    (named : walkParts nodes false again location parts = .found place)
    (found : walkParts nodes true later location parts = .found goal) :
    later (if absolute then [] else place.tail) target = .found goal ∨
      ∃ next nextParts, nodes next = some .directory ∧ again next nextParts = .found place ∧
        later next nextParts = .found goal := by
  induction parts generalizing location with
  | nil =>
      cases named
      rw [start] at node
      cases node
  | cons part rest ih =>
      cases part with
      | here => exact ih start named found
      | up => exact ih (rooted.tail start) named found
      | name value =>
          rw [walkParts] at named found
          cases inside : nodes (value :: location) with
          | none =>
              rw [inside] at found
              simp only at found
              split at found <;> cases found
          | some present =>
              rw [inside] at named found
              cases present with
              | directory => exact ih inside named found
              | file content =>
                  simp only at named
                  split at named
                  · cases named
                    rw [inside] at node
                    cases node
                  · cases named
              | link other behind =>
                  simp only [Bool.not_true, Bool.and_false, Bool.false_eq_true, if_false] at found
                  simp only [Bool.not_false, Bool.and_true] at named
                  split at named
                  · next last =>
                      cases named
                      rw [inside, Option.some.injEq, Node.link.injEq] at node
                      rw [List.isEmpty_iff.1 last, List.append_nil, node.1, node.2] at found
                      exact Or.inl found
                  · refine Or.inr ⟨_, _, ?_, named, found⟩
                    split
                    · exact rooted.root
                    · exact start

theorem walk_link (rooted : Rooted nodes) (start : nodes location = some .directory)
    (node : nodes place = some (.link absolute target)) (named : walk nodes false links location parts = .found place)
    (found : walk nodes true links location parts = .found goal) :
    ∃ fewer < links, walk nodes true fewer (if absolute then [] else place.tail) target = .found goal := by
  induction links generalizing location parts with
  | zero =>
      obtain failed | ⟨_, _, _, failed, _⟩ := walkParts_link rooted start node named found
      · cases failed
      · cases failed
  | succ links ih =>
      obtain behind | ⟨next, nextParts, directory, again, later⟩ := walkParts_link rooted start node named found
      · exact ⟨links, Nat.lt_succ_self links, behind⟩
      · obtain ⟨fewer, less, behind⟩ := ih directory again later
        exact ⟨fewer, Nat.lt_succ_of_lt less, behind⟩

theorem walkParts_plain {again later : Location α → List (Part α) → Walk α}
    (plain : ∀ absolute target, nodes place ≠ some (.link absolute target))
    (next : ∀ location parts, again location parts = .found place → later location parts = .found place)
    (named : walkParts nodes false again location parts = .found place) :
    walkParts nodes true later location parts = .found place := by
  induction parts generalizing location with
  | nil => exact named
  | cons part rest ih =>
      cases part with
      | here => exact ih named
      | up => exact ih named
      | name value =>
          rw [walkParts] at named ⊢
          cases inside : nodes (value :: location) with
          | none =>
              rw [inside] at named
              exact named
          | some present =>
              rw [inside] at named
              cases present with
              | directory => exact ih named
              | file content => exact named
              | link absolute target =>
                  simp only [Bool.not_true, Bool.and_false, Bool.false_eq_true, if_false]
                  simp only [Bool.not_false, Bool.and_true] at named
                  split at named
                  · cases named
                    exact absurd inside (plain _ _)
                  · exact next _ _ named

theorem walk_plain (plain : ∀ absolute target, nodes place ≠ some (.link absolute target))
    (named : walk nodes false links location parts = .found place) : walk nodes true links location parts = .found place := by
  induction links generalizing location parts with
  | zero => exact walkParts_plain plain (fun _ _ failed => by cases failed) named
  | succ links ih => exact walkParts_plain plain (fun _ _ => ih) named

/-! ### Straight paths -/

/-- The path of the names from the root. -/
def straightParts (location : Location α) : List (Part α) := location.reverse.map .name

theorem walkParts_straight {again : Location α → List (Part α) → Walk α} {names : List α} (rooted : Rooted nodes)
    {node : Node α β} (present : nodes (names.reverse ++ location) = some node)
    (plain : follow = true → ∀ absolute target, node ≠ .link absolute target) (start : nodes location = some .directory) :
    walkParts nodes follow again location (names.map .name) = .found (names.reverse ++ location) := by
  induction names generalizing location with
  | nil => rfl
  | cons value names ih =>
      rw [List.reverse_cons, List.append_assoc, List.singleton_append] at present ⊢
      rw [List.map_cons, walkParts]
      by_cases last : names = []
      · subst last
        rw [List.reverse_nil, List.nil_append] at present ⊢
        rw [present]
        cases node with
        | directory => rfl
        | file content => rfl
        | link absolute target =>
            cases follow with
            | false => rfl
            | true => exact absurd rfl (plain rfl absolute target)
      · have directory := rooted.above (List.reverse_ne_nil_iff.2 last) present
        rw [directory]
        exact ih present directory

theorem walk_straight (rooted : Rooted nodes) {node : Node α β} (present : nodes place = some node)
    (plain : follow = true → ∀ absolute target, node ≠ .link absolute target) :
    walk nodes follow links [] (straightParts place) = .found place := by
  have same : place.reverse.reverse ++ [] = place := by rw [List.append_nil, List.reverse_reverse]
  have walked : ∀ again : Location α → List (Part α) → Walk α,
      walkParts nodes follow again [] (place.reverse.map .name) = .found place := by
    intro again
    have found := @walkParts_straight _ _ nodes follow [] again place.reverse rooted node (by rw [same, present]) plain rooted.root
    rwa [same] at found
  cases links with
  | zero => exact walked _
  | succ links => exact walked _

theorem walkParts_straight_link {again : Location α → List (Part α) → Walk α} (names : List α) (rooted : Rooted nodes)
    (start : nodes location = some .directory) {value : α}
    (node : nodes (value :: (names.reverse ++ location)) = some (.link absolute target)) :
    walkParts nodes true again location ((names ++ [value]).map .name) =
      again (if absolute then [] else names.reverse ++ location) target := by
  induction names generalizing location with
  | nil =>
      rw [List.reverse_nil, List.nil_append] at node
      simp only [List.nil_append, List.map_cons, List.map_nil, walkParts, node, List.reverse_nil, Bool.not_true,
        Bool.and_false, Bool.false_eq_true, if_false, List.append_nil]
  | cons first names ih =>
      rw [List.reverse_cons, List.append_assoc, List.singleton_append] at node ⊢
      have above : (value :: names.reverse) ++ first :: location = value :: (names.reverse ++ first :: location) := rfl
      have directory := rooted.above (List.cons_ne_nil value names.reverse) (above ▸ node)
      rw [List.cons_append, List.map_cons, walkParts, directory]
      exact ih directory node

theorem walk_straight_of_found (rooted : Rooted nodes) (start : nodes location = some .directory)
    (named : walk nodes false links location parts = .found place) (found : walk nodes true links location parts = .found goal) :
    walk nodes true links [] (straightParts place) = .found goal := by
  obtain ⟨⟨node, present⟩, -⟩ : Walk.Lands nodes false (.found place) := named ▸ walk_lands rooted start
  by_cases plain : ∀ absolute target, node ≠ .link absolute target
  · have ended := walk_plain (fun absolute target same => plain absolute target (Option.some.inj (present.symm.trans same))) named
    rw [found] at ended
    cases ended
    exact walk_straight rooted present fun _ => plain
  · push Not at plain
    obtain ⟨absolute, target, rfl⟩ := plain
    obtain ⟨fewer, less, behind⟩ := walk_link rooted start present named found
    obtain ⟨links, rfl⟩ := Nat.exists_eq_succ_of_ne_zero (Nat.ne_zero_of_lt less)
    cases place with
    | nil =>
        rw [rooted.root] at present
        cases present
    | cons value above =>
        have shape : straightParts (value :: above) = (above.reverse ++ [value]).map .name := by
          rw [straightParts, List.reverse_cons]
        rw [shape, walk, walkParts_straight_link above.reverse rooted rooted.root]
        · rw [List.reverse_reverse, List.append_nil]
          exact walk_more (Nat.lt_succ_iff.1 less) behind
        · rw [List.reverse_reverse, List.append_nil]
          exact present

end Places

end ReqPack.Data.FileSystem
