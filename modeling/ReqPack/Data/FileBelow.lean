import ReqPack.Data.FileGrowth

/-! # Below a directory without links

Where no link stands below a directory, a path into it goes from name to name, and what is
written under such a path stays below the directory.
-/

namespace ReqPack.Data.FileSystem

universe u v

variable {α : Type u} {β : Type v}

/-- The walk over names where no links stand. -/
def descend (nodes : Nodes α β) : Location α → List α → Walk α
  | location, [] => .found location
  | location, value :: rest =>
      match nodes (value :: location) with
      | none => if rest.isEmpty then .missing location value else .failed
      | some .directory => descend nodes (value :: location) rest
      | some _ => if rest.isEmpty then .found (value :: location) else .failed

/-- No link stands at a location or below it. -/
def Unlinked (top : Location α) (nodes : Nodes α β) : Prop :=
  ∀ location, top <:+ location → ∀ absolute target, nodes location ≠ some (.link absolute target)

section Walks

variable {nodes : Nodes α β} {follow : Bool} {top location place base : Location α} {parts rest : List (Part α)}
variable {names : List α}

theorem descend_inside (below : top <:+ location) : (descend nodes location names).Inside top := by
  induction names generalizing location with
  | nil => exact below
  | cons value names ih =>
      rw [descend]
      split
      · split
        · exact below
        · exact True.intro
      · exact ih (suffix_cons below value)
      · split
        · exact suffix_cons below value
        · exact True.intro

theorem walkParts_names {again : Location α → List (Part α) → Walk α} (unlinked : Unlinked top nodes)
    (below : top <:+ location) :
    walkParts nodes follow again location (names.map Part.name) = descend nodes location names := by
  induction names generalizing location with
  | nil => rfl
  | cons value names ih =>
      have deeper := suffix_cons below value
      rw [List.map_cons, walkParts, descend]
      cases node : nodes (value :: location) with
      | none => simp only [List.isEmpty_map]
      | some present =>
          cases present with
          | directory => exact ih deeper
          | file content => simp only [List.isEmpty_map]
          | link absolute target => exact absurd node (unlinked _ deeper absolute target)

theorem walkParts_append {again later : Location α → List (Part α) → Walk α} (directory : nodes top = some .directory)
    (more : rest ≠ []) (found : walkParts nodes true again location parts = .found top) :
    walkParts nodes follow later location (parts ++ rest) = walkParts nodes follow later top rest ∨
      ∃ next nextParts, again next nextParts = .found top ∧
        walkParts nodes follow later location (parts ++ rest) = later next (nextParts ++ rest) := by
  induction parts generalizing location with
  | nil =>
      cases found
      exact Or.inl rfl
  | cons part parts ih =>
      have unfinished : (parts ++ rest).isEmpty = false := by simp [more]
      cases part with
      | here => exact ih found
      | up => exact ih found
      | name value =>
          rw [walkParts] at found
          rw [List.cons_append, walkParts]
          cases node : nodes (value :: location) with
          | none =>
              rw [node] at found
              simp only at found
              split at found <;> cases found
          | some present =>
              rw [node] at found
              cases present with
              | directory => exact ih found
              | file content =>
                  simp only at found
                  split at found
                  · cases found
                    rw [directory] at node
                    cases node
                  · cases found
              | link absolute target =>
                  simp only [Bool.not_true, Bool.and_false, Bool.false_eq_true, if_false] at found
                  simp only [unfinished, Bool.false_and, Bool.false_eq_true, if_false]
                  rw [← List.append_assoc]
                  exact Or.inr ⟨_, _, found, rfl⟩

theorem walk_append {links : Nat} (directory : nodes top = some .directory) (more : rest ≠ [])
    (found : walk nodes true links base parts = .found top) :
    ∃ fewer, walk nodes follow links base (parts ++ rest) = walk nodes follow fewer top rest := by
  induction links generalizing base parts with
  | zero =>
      obtain same | ⟨_, _, failed, _⟩ := walkParts_append directory more found
      · exact ⟨0, same⟩
      · cases failed
  | succ links ih =>
      obtain same | ⟨next, nextParts, later, same⟩ := walkParts_append directory more found
      · exact ⟨links + 1, same⟩
      · obtain ⟨fewer, rest⟩ := ih later
        exact ⟨fewer, same.trans rest⟩

theorem walk_names {links : Nat} (unlinked : Unlinked top nodes) (below : top <:+ location) :
    walk nodes follow links location (names.map Part.name) = descend nodes location names := by
  cases links with
  | zero => exact walkParts_names unlinked below
  | succ links => exact walkParts_names unlinked below

theorem walk_below {links : Nat} (unlinked : Unlinked top nodes) (directory : nodes top = some .directory)
    (named : names ≠ []) (found : walk nodes true links base parts = .found top) :
    walk nodes follow links base (parts ++ names.map Part.name) = descend nodes top names := by
  have more : names.map Part.name ≠ [] := by simpa using named
  obtain ⟨fewer, same⟩ := walk_append directory more found
  rw [same, walk_names unlinked (List.suffix_refl _)]

theorem walk_here {links : Nat} (directory : nodes top = some .directory)
    (found : walk nodes true links base parts = .found top) :
    walk nodes follow links base (parts ++ [.here]) = .found top := by
  obtain ⟨fewer, same⟩ := walk_append directory (List.cons_ne_nil _ _) found
  rw [same]
  cases fewer with
  | zero => rfl
  | succ fewer => rfl

theorem walkParts_front {again later : Location α → List (Part α) → Walk α}
    (next : ∀ location parts, again location (parts ++ rest) = .found place →
      ∃ middle, later location parts = .found middle)
    (more : rest ≠ []) (found : walkParts nodes follow again location (parts ++ rest) = .found place) :
    ∃ middle, walkParts nodes true later location parts = .found middle := by
  induction parts generalizing location with
  | nil => exact ⟨location, rfl⟩
  | cons part parts ih =>
      have unfinished : (parts ++ rest).isEmpty = false := by simp [more]
      cases part with
      | here => exact ih found
      | up => exact ih found
      | name value =>
          rw [List.cons_append, walkParts] at found
          rw [walkParts]
          cases node : nodes (value :: location) with
          | none =>
              rw [node, unfinished] at found
              cases found
          | some present =>
              rw [node] at found
              cases present with
              | directory => exact ih found
              | file content =>
                  simp only [unfinished] at found
                  cases found
              | link absolute target =>
                  simp only [unfinished, Bool.false_and, Bool.false_eq_true, if_false] at found
                  simp only [Bool.not_true, Bool.and_false, Bool.false_eq_true, if_false]
                  rw [← List.append_assoc] at found
                  exact next _ _ found

theorem walk_front {links : Nat} (more : rest ≠ []) (found : walk nodes follow links base (parts ++ rest) = .found place) :
    ∃ middle, walk nodes true links base parts = .found middle := by
  induction links generalizing base parts with
  | zero => exact walkParts_front (fun _ _ failed => by cases failed) more found
  | succ links ih => exact walkParts_front (fun _ _ => ih) more found

theorem Rooted.above (rooted : Rooted nodes) {front : List α} {node : Node α β} (more : front ≠ [])
    (present : nodes (front ++ location) = some node) : nodes location = some .directory := by
  induction front generalizing node with
  | nil => exact absurd rfl more
  | cons value front ih =>
      have parent := rooted.parent value _ node present
      by_cases last : front = []
      · rw [last] at parent
        exact parent
      · exact ih last parent

theorem descend_found_iff (rooted : Rooted nodes) (here : nodes location = some .directory) :
    descend nodes location names = .found place ↔
      place = names.reverse ++ location ∧ ∃ node, nodes place = some node := by
  induction names generalizing location with
  | nil =>
      rw [descend, Walk.found.injEq, List.reverse_nil, List.nil_append]
      apply Iff.intro
      · rintro rfl
        exact ⟨rfl, _, here⟩
      · intro found
        exact found.1.symm
  | cons value names ih =>
      rw [descend, List.reverse_cons, List.append_assoc, List.singleton_append]
      have last : ∀ {node : Node α β}, nodes (value :: location) = some node → node ≠ .directory →
          ((if names.isEmpty then Walk.found (value :: location) else .failed) = .found place ↔
            place = names.reverse ++ value :: location ∧ ∃ node, nodes place = some node) := by
        intro node present plain
        cases names with
        | nil =>
            rw [List.isEmpty_nil, if_pos rfl, Walk.found.injEq]
            apply Iff.intro
            · rintro rfl
              exact ⟨rfl, _, present⟩
            · intro found
              exact found.1.symm
        | cons next names =>
            rw [List.isEmpty_cons, if_neg (by decide)]
            apply Iff.intro
            · intro found
              cases found
            · rintro ⟨rfl, below, found⟩
              rw [rooted.above (by simp) found] at present
              exact absurd (Option.some.inj present).symm plain
      cases node : nodes (value :: location) with
      | none =>
          have absent : ¬ (place = names.reverse ++ value :: location ∧ ∃ node, nodes place = some node) := by
            rintro ⟨rfl, below, found⟩
            cases names with
            | nil => exact absurd (node.symm.trans found) (by simp)
            | cons next names => exact absurd (node.symm.trans (rooted.above (by simp) found)) (by simp)
          rw [iff_false_right absent]
          simp only
          split
          · exact fun found => by cases found
          · exact fun found => by cases found
      | some present =>
          cases present with
          | directory => exact ih node
          | file content => exact last node (by simp)
          | link absolute target => exact last node (by simp)

theorem descend_missing {directory : Location α} {value : α} (missing : descend nodes location names = .missing directory value) :
    value :: directory = names.reverse ++ location := by
  induction names generalizing location with
  | nil => cases missing
  | cons name names ih =>
      rw [descend] at missing
      rw [List.reverse_cons, List.append_assoc, List.singleton_append]
      split at missing
      · split at missing
        · rename_i last
          cases missing
          rw [List.isEmpty_iff.1 last]
          rfl
        · cases missing
      · exact ih missing
      · split at missing <;> cases missing

end Walks

/-! ## Changes below a directory -/

def StrictlyBelow (top location : Location α) : Prop := top <:+ location ∧ location ≠ top

/-- What is different behind an operation lies below a directory, and is no link. -/
structure ChangesBelow (top : Location α) (disk after : Disk α β) : Prop where
  outside : ∀ location, ¬ StrictlyBelow top location → after.nodes location = disk.nodes location
  unlinked : Unlinked top disk.nodes → Unlinked top after.nodes

section Below

variable {top location base : Location α} {disk middle after : Disk α β} {nodes other : Nodes α β}

theorem strictlyBelow_cons (below : top <:+ location) (value : α) : StrictlyBelow top (value :: location) := by
  refine ⟨suffix_cons below value, ?_⟩
  rintro rfl
  have shorter := below.length_le
  rw [List.length_cons] at shorter
  omega

theorem strictlyBelow_append (front : List α) (more : front ≠ []) (top : Location α) : StrictlyBelow top (front ++ top) := by
  cases front with
  | nil => exact absurd rfl more
  | cons value front => exact strictlyBelow_cons (List.suffix_append front top) value

theorem strictlyBelow_outer {front : List α} (below : StrictlyBelow (front ++ top) location) : StrictlyBelow top location := by
  refine ⟨(List.suffix_append front top).trans below.1, ?_⟩
  rintro rfl
  exact below.2 ((List.suffix_append front location).eq_of_length_le below.1.length_le)

theorem ChangesBelow.refl (top : Location α) (disk : Disk α β) : ChangesBelow top disk disk where
  outside _ _ := rfl
  unlinked unlinked := unlinked

theorem ChangesBelow.trans (first : ChangesBelow top disk middle) (second : ChangesBelow top middle after) :
    ChangesBelow top disk after where
  outside location apart := (second.outside location apart).trans (first.outside location apart)
  unlinked unlinked := second.unlinked (first.unlinked unlinked)

theorem ChangesBelow.outer {front : List α} (changes : ChangesBelow (front ++ top) disk after) : ChangesBelow top disk after where
  outside location apart := changes.outside location (mt strictlyBelow_outer apart)
  unlinked unlinked := by
    intro location below absolute target
    have inner : Unlinked (front ++ top) disk.nodes := fun place inside =>
      unlinked place ((List.suffix_append front top).trans inside)
    by_cases inside : StrictlyBelow (front ++ top) location
    · exact changes.unlinked inner location inside.1 absolute target
    · rw [changes.outside location inside]
      exact unlinked location below absolute target

theorem not_below_top (top : Location α) : ¬ StrictlyBelow top top := fun below => below.2 rfl

variable [DecidableEq α]

/-- The file system without what stands below a directory. -/
def outsideOf (top : Location α) (nodes : Nodes α β) : Nodes α β :=
  fun location => if top <:+ location ∧ location ≠ top then none else nodes location

theorem outsideOf_apart (apart : ¬ StrictlyBelow top location) : outsideOf top nodes location = nodes location := if_neg apart

theorem eq_of_outsideOf {node : Node α β} (present : outsideOf top nodes location = some node) :
    nodes location = some node ∧ ¬ StrictlyBelow top location := by
  rw [outsideOf] at present
  split at present
  · cases present
  · rename_i apart
    exact ⟨present, apart⟩

omit [DecidableEq α] in
theorem grows_of_kept (kept : ∀ location node, nodes location = some node → other location = some node) : Grows nodes other where
  directory location := kept location _
  link location _ _ := kept location _
  file location content found := ⟨content, kept location _ found⟩

theorem outsideOf_kept {front : List α} {node : Node α β} (present : outsideOf top nodes location = some node) :
    outsideOf (front ++ top) nodes location = some node := by
  obtain ⟨here, apart⟩ := eq_of_outsideOf present
  rw [outsideOf_apart (mt strictlyBelow_outer apart), here]

theorem outsideOf_grows (top : Location α) (nodes : Nodes α β) : Grows (outsideOf top nodes) nodes :=
  grows_of_kept fun _ _ present => (eq_of_outsideOf present).1

theorem outsideOf_rooted (rooted : Rooted nodes) : Rooted (outsideOf top nodes) where
  root := by
    rw [outsideOf_apart, rooted.root]
    intro below
    exact below.2 (List.suffix_nil.1 below.1).symm
  parent value location node present := by
    obtain ⟨here, apart⟩ := eq_of_outsideOf present
    rw [outsideOf_apart, rooted.parent value location node here]
    intro below
    exact apart (strictlyBelow_cons below.1 value)

theorem outsideOf_unlinked {other : Location α} (unlinked : Unlinked top nodes) : Unlinked top (outsideOf other nodes) :=
  fun location below absolute target present => unlinked location below absolute target (eq_of_outsideOf present).1

theorem ChangesBelow.outsideOf_eq (changes : ChangesBelow top disk after) :
    outsideOf top after.nodes = outsideOf top disk.nodes := by
  funext location
  rw [outsideOf, outsideOf]
  split
  · rfl
  · rename_i apart
    exact changes.outside location apart

end Below

/-- A path that leads, without a way through the directory itself, to a directory without links. -/
structure Reaches [DecidableEq α] (links : Nat) (base : Location α) (parts : List (Part α)) (top : Location α)
    (nodes : Nodes α β) : Prop where
  leads : walk (outsideOf top nodes) true links base parts = .found top
  directory : nodes top = some .directory
  unlinked : Unlinked top nodes

section Changes

variable [DecidableEq α] {top base start : Location α} {disk middle after : Disk α β} {nodes : Nodes α β} {links : Nat}
variable {path parts : List (Part α)} {names : List α}

theorem Reaches.found (reaches : Reaches links start parts top nodes) : walk nodes true links start parts = .found top :=
  walk_grows (outsideOf_grows top nodes) reaches.leads

theorem Reaches.changed (reaches : Reaches links start parts top disk.nodes) (changes : ChangesBelow top disk after) :
    Reaches links start parts top after.nodes where
  leads := by rw [changes.outsideOf_eq, reaches.leads]
  directory := (changes.outside top (not_below_top top)).trans reaches.directory
  unlinked := changes.unlinked reaches.unlinked

theorem put_changesBelow {location : Location α} {node : Node α β} (below : StrictlyBelow top location)
    (plain : ∀ absolute target, node ≠ .link absolute target) : ChangesBelow top disk (disk.put location node) where
  outside other apart := by
    rw [put_nodes, if_neg]
    intro same
    rw [same] at apart
    exact apart below
  unlinked unlinked := by
    intro other below absolute target
    rw [put_nodes]
    split
    · intro same
      exact plain absolute target (Option.some.inj same)
    · exact unlinked other below absolute target

theorem Reaches.inside (reaches : Reaches links start parts top disk.nodes) (named : names ≠ []) (follow : Bool) :
    (walk disk.nodes follow links start (parts ++ names.map Part.name)).Inside top := by
  rw [walk_below reaches.unlinked reaches.directory named reaches.found]
  exact descend_inside (List.suffix_refl _)

theorem ensureDirectory_changesBelow (reaches : Reaches links start parts top disk.nodes)
    (front : path ∈ fronts (parts ++ names.map Part.name)) :
    ChangesBelow top disk (ensureDirectory links start path disk).1 := by
  obtain ⟨rest, whole⟩ := (List.mem_inits _ _).mp (List.mem_of_mem_tail front)
  rw [ensureDirectory]
  split
  · exact ChangesBelow.refl top disk
  · rename_i absent
    split
    · rename_i directory value missing
      obtain ⟨more, same, _⟩ | ⟨more, same, rest⟩ := List.append_eq_append_iff.1 whole
      · -- the path ends before the directory does
        obtain ⟨place, found⟩ : ∃ place, walk disk.nodes true links start path = .found place := by
          by_cases last : more = []
          · rw [last, List.append_nil] at same
            exact ⟨top, same ▸ reaches.found⟩
          · have found := reaches.found
            rw [same] at found
            exact walk_front last found
        exact absurd found (absent place)
      · obtain ⟨entered, left, _, mapped, _⟩ := List.map_eq_append_iff.1 rest
        rw [same, ← mapped] at missing absent
        by_cases none : entered = []
        · rw [none, List.map_nil, List.append_nil] at absent
          exact absurd reaches.found (absent top)
        · have inside := reaches.inside none false
          rw [missing] at inside
          exact put_changesBelow (strictlyBelow_cons inside value) fun _ _ same => by cases same
    · exact ChangesBelow.refl top disk

theorem ensureDirectories_changesBelow {paths : List (List (Part α))} (reaches : Reaches links start parts top disk.nodes)
    (each : ∀ path ∈ paths, path ∈ fronts (parts ++ names.map Part.name)) :
    ChangesBelow top disk (ensureDirectories links start paths disk).1 := by
  induction paths generalizing disk with
  | nil => exact ChangesBelow.refl top disk
  | cons path paths ih =>
      have first := ensureDirectory_changesBelow reaches (each path List.mem_cons_self)
      rw [ensureDirectories, Outcome.andThen]
      split
      · have later := ih (reaches.changed first) fun other member => each other (List.mem_cons_of_mem _ member)
        exact first.trans later
      · exact first

/-- Nothing but directories is new. -/
def OnlyDirectories (disk after : Disk α β) : Prop :=
  ∀ location, after.nodes location = disk.nodes location ∨
    (disk.nodes location = none ∧ after.nodes location = some .directory)

theorem ensureDirectories_onlyDirectories (paths : List (List (Part α))) :
    OnlyDirectories disk (ensureDirectories links start paths disk).1 := by
  induction paths generalizing disk with
  | nil => exact fun _ => Or.inl rfl
  | cons path paths ih =>
      have first : OnlyDirectories disk (ensureDirectory links start path disk).1 := by
        intro location
        rw [ensureDirectory]
        split
        · exact Or.inl rfl
        · split
          · rename_i directory value missing
            rw [put_nodes]
            split
            · rename_i same
              exact Or.inr ⟨same ▸ walk_missing missing, rfl⟩
            · exact Or.inl rfl
          · exact Or.inl rfl
      rw [ensureDirectories, Outcome.andThen]
      split
      · intro location
        obtain same | ⟨absent, made⟩ := ih location
        · rw [same]
          exact first location
        · obtain kept | ⟨before, now⟩ := first location
          · exact Or.inr ⟨kept ▸ absent, made⟩
          · rw [now] at absent
            cases absent
      · exact first

theorem createDirectories_changesBelow (reaches : Reaches links start parts top disk.nodes) (names : List α) :
    ChangesBelow top disk (createDirectories links start (parts ++ names.map Part.name) disk).1 :=
  ensureDirectories_changesBelow reaches fun _ member => member

theorem Reaches.deeper (rooted : Rooted nodes) (reaches : Reaches links start parts top nodes)
    (directory : nodes (names.reverse ++ top) = some .directory) :
    Reaches links start (parts ++ names.map Part.name) (names.reverse ++ top) nodes where
  leads := by
    by_cases none : names = []
    · rw [none]
      simpa using reaches.leads
    · have grows : Grows (outsideOf top nodes) (outsideOf (names.reverse ++ top) nodes) :=
        grows_of_kept fun _ _ => outsideOf_kept
      have here : outsideOf (names.reverse ++ top) nodes top = some .directory := by
        rw [outsideOf_apart (mt strictlyBelow_outer (not_below_top top)), reaches.directory]
      rw [walk_below (outsideOf_unlinked reaches.unlinked) here none (walk_grows grows reaches.leads),
        descend_found_iff (outsideOf_rooted rooted) here]
      exact ⟨rfl, .directory, (outsideOf_apart (not_below_top _)).trans directory⟩
  directory := directory
  unlinked location below := reaches.unlinked location ((List.suffix_append names.reverse top).trans below)

end Changes

end ReqPack.Data.FileSystem
