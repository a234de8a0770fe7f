import ReqPack.Data.FileSystem

/-! # File systems that only grow

Directories and links stay, and a file stays a file.  What leads somewhere keeps leading
there.
-/

namespace ReqPack.Data.FileSystem

universe u v

variable {α : Type u} {β : Type v}

structure Grows (nodes other : Nodes α β) : Prop where
  directory : ∀ location, nodes location = some .directory → other location = some .directory
  link : ∀ location absolute target, nodes location = some (.link absolute target) →
    other location = some (.link absolute target)
  file : ∀ location content, nodes location = some (.file content) → ∃ later, other location = some (.file later)

section Walks

variable {nodes other third : Nodes α β} {follow : Bool} {location place : Location α} {parts : List (Part α)}

theorem Grows.refl (nodes : Nodes α β) : Grows nodes nodes where
  directory _ found := found
  link _ _ _ found := found
  file _ content found := Exists.intro content found

theorem Grows.trans (first : Grows nodes other) (second : Grows other third) : Grows nodes third where
  directory location found := second.directory location (first.directory location found)
  link location absolute target found := second.link location absolute target (first.link location absolute target found)
  file location content found := by
    obtain ⟨later, kept⟩ := first.file location content found
    exact second.file location later kept

theorem Grows.present (grows : Grows nodes other) {node : Node α β} (present : nodes location = some node) :
    ∃ later, other location = some later := by
  cases node with
  | directory => exact ⟨_, grows.directory location present⟩
  | file content => exact (grows.file location content present).imp' _ fun later kept => kept
  | link absolute target => exact ⟨_, grows.link location absolute target present⟩

theorem walkParts_grows {again later : Location α → List (Part α) → Walk α}
    (next : ∀ location parts, again location parts = .found place → later location parts = .found place)
    (grows : Grows nodes other) (found : walkParts nodes follow again location parts = .found place) :
    walkParts other follow later location parts = .found place := by
  induction parts generalizing location with
  | nil => exact found
  | cons part rest ih =>
      cases part with
      | here => exact ih found
      | up => exact ih found
      | name value =>
          rw [walkParts] at found ⊢
          cases node : nodes (value :: location) with
          | none =>
              rw [node] at found
              simp only at found
              split at found <;> cases found
          | some present =>
              rw [node] at found
              cases present with
              | directory =>
                  rw [grows.directory _ node]
                  exact ih found
              | file content =>
                  obtain ⟨kept, same⟩ := grows.file _ _ node
                  rw [same]
                  exact found
              | link absolute target =>
                  rw [grows.link _ _ _ node]
                  simp only at found ⊢
                  split at found
                  · next last =>
                      rw [if_pos last]
                      exact found
                  · next last =>
                      rw [if_neg last]
                      exact next _ _ found

/-- What leads somewhere keeps leading there. -/
theorem walk_grows {links : Nat} (grows : Grows nodes other)
    (found : walk nodes follow links location parts = .found place) :
    walk other follow links location parts = .found place := by
  induction links generalizing location parts with
  | zero => exact walkParts_grows (fun _ _ failed => by cases failed) grows found
  | succ links ih => exact walkParts_grows (fun _ _ => ih) grows found

theorem walkParts_created {again later : Location α → List (Part α) → Walk α} {directory : Location α} {value : α}
    {node : Node α β} (next : ∀ location parts, again location parts = .missing directory value →
      later location parts = .found (value :: directory))
    (grows : Grows nodes other) (created : other (value :: directory) = some node)
    (plain : ∀ absolute target, node ≠ .link absolute target)
    (missing : walkParts nodes follow again location parts = .missing directory value) :
    walkParts other follow later location parts = .found (value :: directory) := by
  induction parts generalizing location with
  | nil => cases missing
  | cons part rest ih =>
      cases part with
      | here => exact ih missing
      | up => exact ih missing
      | name component =>
          rw [walkParts] at missing ⊢
          cases there : nodes (component :: location) with
          | none =>
              rw [there] at missing
              simp only at missing
              split at missing
              · next last =>
                  cases missing
                  rw [created, List.isEmpty_iff.mp last]
                  cases node with
                  | directory => rfl
                  | file content => rfl
                  | link absolute target => exact absurd rfl (plain absolute target)
              · cases missing
          | some present =>
              rw [there] at missing
              cases present with
              | directory =>
                  rw [grows.directory _ there]
                  exact ih missing
              | file inside =>
                  simp only at missing
                  split at missing <;> cases missing
              | link absolute target =>
                  rw [grows.link _ _ _ there]
                  simp only at missing ⊢
                  split at missing
                  · cases missing
                  · next last =>
                      rw [if_neg last]
                      exact next _ _ missing

/-- A path leads to what was created at its end. -/
theorem walk_created {links : Nat} {directory : Location α} {value : α} {node : Node α β} (grows : Grows nodes other)
    (created : other (value :: directory) = some node) (plain : ∀ absolute target, node ≠ .link absolute target)
    (missing : walk nodes follow links location parts = .missing directory value) :
    walk other follow links location parts = .found (value :: directory) := by
  induction links generalizing location parts with
  | zero => exact walkParts_created (fun _ _ failed => by cases failed) grows created plain missing
  | succ links ih => exact walkParts_created (fun _ _ => ih) grows created plain missing

end Walks

section Unfollowed

variable {nodes : Nodes α β} {location directory place : Location α} {parts : List (Part α)} {value : α}

theorem walkParts_unfollowed {again later : Location α → List (Part α) → Walk α}
    (next : ∀ location parts place, again location parts = .found place → ∃ here, later location parts = .found here)
    (found : walkParts nodes true again location parts = .found place) :
    ∃ here, walkParts nodes false later location parts = .found here := by
  induction parts generalizing location with
  | nil => exact ⟨location, rfl⟩
  | cons part rest ih =>
      cases part with
      | here => exact ih found
      | up => exact ih found
      | name component =>
          rw [walkParts] at found ⊢
          cases node : nodes (component :: location) with
          | none =>
              rw [node] at found
              simp only at found
              split at found <;> cases found
          | some present =>
              rw [node] at found
              cases present with
              | directory => exact ih found
              | file content => exact ⟨place, found⟩
              | link absolute target =>
                  simp only [Bool.not_true, Bool.and_false, Bool.false_eq_true, if_false] at found
                  simp only [Bool.not_false, Bool.and_true]
                  split
                  · exact ⟨_, rfl⟩
                  · exact next _ _ _ found

/-- What is reached through a link at the end is there without following it, too. -/
theorem walk_unfollowed {links : Nat} (found : walk nodes true links location parts = .found place) :
    ∃ here, walk nodes false links location parts = .found here := by
  induction links generalizing location parts place with
  | zero => exact walkParts_unfollowed (fun _ _ _ failed => by cases failed) found
  | succ links ih => exact walkParts_unfollowed (fun _ _ _ => ih) found

theorem walkParts_missing_followed {again later : Location α → List (Part α) → Walk α}
    (next : ∀ location parts, again location parts = .missing directory value →
      later location parts = .missing directory value)
    (missing : walkParts nodes false again location parts = .missing directory value) :
    walkParts nodes true later location parts = .missing directory value := by
  induction parts generalizing location with
  | nil => cases missing
  | cons part rest ih =>
      cases part with
      | here => exact ih missing
      | up => exact ih missing
      | name component =>
          rw [walkParts] at missing ⊢
          cases node : nodes (component :: location) with
          | none =>
              rw [node] at missing
              exact missing
          | some present =>
              rw [node] at missing
              cases present with
              | directory => exact ih missing
              | file content => exact missing
              | link absolute target =>
                  simp only [Bool.not_false, Bool.and_true] at missing
                  simp only [Bool.not_true, Bool.and_false, Bool.false_eq_true, if_false]
                  split at missing
                  · cases missing
                  · exact next _ _ missing

theorem walk_missing_followed {links : Nat} (missing : walk nodes false links location parts = .missing directory value) :
    walk nodes true links location parts = .missing directory value := by
  induction links generalizing location parts with
  | zero => exact walkParts_missing_followed (fun _ _ failed => by cases failed) missing
  | succ links ih => exact walkParts_missing_followed (fun _ _ => ih) missing

end Unfollowed

/-! ## Trees -/

/-- The root is a directory, and everything else stands in one. -/
structure Rooted (nodes : Nodes α β) : Prop where
  root : nodes [] = some .directory
  parent : ∀ value location node, nodes (value :: location) = some node → nodes location = some .directory

section Rooted

variable {nodes : Nodes α β} {follow : Bool} {location : Location α} {parts : List (Part α)}

theorem Rooted.tail (rooted : Rooted nodes) (here : nodes location = some .directory) :
    nodes location.tail = some .directory := by
  cases location with
  | nil => exact here
  | cons value location => exact rooted.parent value location _ here

/-- Where a walk may end: at a node that is there, no link if links are followed, or
beside nothing in a directory. -/
def Walk.Lands (nodes : Nodes α β) (follow : Bool) : Walk α → Prop
  | .found place => (∃ node, nodes place = some node) ∧
      (follow = true → ∀ absolute target, nodes place ≠ some (.link absolute target))
  | .missing directory value => nodes directory = some .directory ∧ nodes (value :: directory) = none
  | .failed => True

theorem walkParts_lands {again : Location α → List (Part α) → Walk α} (rooted : Rooted nodes)
    (next : ∀ location parts, nodes location = some .directory → (again location parts).Lands nodes follow)
    (start : nodes location = some .directory) :
    (walkParts nodes follow again location parts).Lands nodes follow := by
  induction parts generalizing location with
  | nil => exact ⟨⟨_, start⟩, fun _ absolute target same => by rw [start] at same; cases same⟩
  | cons part rest ih =>
      cases part with
      | here => exact ih start
      | up => exact ih (rooted.tail start)
      | name value =>
          rw [walkParts]
          cases node : nodes (value :: location) with
          | none =>
              simp only
              split
              · exact ⟨start, node⟩
              · exact True.intro
          | some present =>
              cases present with
              | directory => exact ih node
              | file content =>
                  simp only
                  split
                  · exact ⟨⟨_, node⟩, fun _ absolute target same => by rw [node] at same; cases same⟩
                  · exact True.intro
              | link absolute target =>
                  simp only
                  split
                  · next last =>
                      refine ⟨⟨_, node⟩, fun following => ?_⟩
                      simp [following] at last
                  · refine next _ _ ?_
                    split
                    · exact rooted.root
                    · exact start

theorem walk_lands {links : Nat} (rooted : Rooted nodes) (start : nodes location = some .directory) :
    (walk nodes follow links location parts).Lands nodes follow := by
  induction links generalizing location parts with
  | zero => exact walkParts_lands rooted (fun _ _ _ => True.intro) start
  | succ links ih => exact walkParts_lands rooted (fun _ _ => ih) start

end Rooted

section Extends

variable {disk : Disk α β} {base : Location α}

/-- A disk that holds a tree, and a directory in it. -/
structure Mounted (base : Location α) (nodes : Nodes α β) : Prop where
  rooted : Rooted nodes
  base : nodes base = some .directory

/-- The file system that holds what is listed. -/
def ofEntries [DecidableEq α] (entries : List (Location α × Node α β)) : Nodes α β := fun location => entries.lookup location

theorem mem_of_ofEntries [DecidableEq α] {entries : List (Location α × Node α β)} {location : Location α} {node : Node α β}
    (present : ofEntries entries location = some node) : (location, node) ∈ entries := by
  obtain ⟨front, back, split, -⟩ := List.lookup_eq_some_iff.mp present
  rw [split]
  exact List.mem_append_right _ List.mem_cons_self

theorem ofEntries_mounted [DecidableEq α] [DecidableEq β] {entries : List (Location α × Node α β)}
    (root : entries.lookup [] = some .directory) (started : entries.lookup base = some .directory)
    (parents : (entries.all fun entry => entry.1.isEmpty || entries.lookup entry.1.tail == some .directory) = true) :
    Mounted base (ofEntries entries) := by
  refine ⟨⟨root, fun value location node present => ?_⟩, started⟩
  have parent := List.all_eq_true.mp parents _ (mem_of_ofEntries present)
  rw [Bool.or_eq_true, beq_iff_eq] at parent
  exact parent.resolve_left (by simp)

/-- What an operation leaves: a tree that has grown. -/
structure Extends (base : Location α) (disk after : Disk α β) : Prop where
  mounted : Mounted base after.nodes
  grows : Grows disk.nodes after.nodes

theorem Extends.refl (mounted : Mounted base disk.nodes) : Extends base disk disk := ⟨mounted, Grows.refl _⟩

theorem Extends.trans {middle after : Disk α β} (first : Extends base disk middle) (second : Extends base middle after) :
    Extends base disk after :=
  ⟨second.mounted, first.grows.trans second.grows⟩

end Extends

section Operations

variable [DecidableEq α] {disk : Disk α β} {location base : Location α} {links : Nat} {path : List (Part α)}

theorem put_nodes (node : Node α β) (other : Location α) :
    (disk.put location node).nodes other = if other = location then some node else disk.nodes other := by
  simp only [Disk.put, Function.update_apply]

/-- A node is added to a directory. -/
theorem put_missing_extends (mounted : Mounted base disk.nodes) {directory : Location α} {value : α} (node : Node α β)
    (inside : disk.nodes directory = some .directory) (absent : disk.nodes (value :: directory) = none) :
    Extends base disk (disk.put (value :: directory) node) := by
  have kept : ∀ other found, disk.nodes other = some found → (disk.put (value :: directory) node).nodes other = some found := by
    intro other found present
    rw [put_nodes, if_neg, present]
    rintro rfl
    rw [absent] at present
    cases present
  refine ⟨⟨⟨kept _ _ mounted.rooted.root, fun name location found present => ?_⟩, kept _ _ mounted.base⟩,
    ⟨fun other => kept other _, fun other _ _ => kept other _, fun other content found => ⟨content, kept other _ found⟩⟩⟩
  rw [put_nodes] at present
  split at present
  · next same =>
      obtain ⟨rfl, rfl⟩ := List.cons.inj same
      exact kept _ _ inside
  · exact kept _ _ (mounted.rooted.parent name location found present)

/-- A file gets another content. -/
theorem put_file_extends (mounted : Mounted base disk.nodes) {content old : β}
    (present : disk.nodes location = some (.file old)) : Extends base disk (disk.put location (.file content)) := by
  have kept : ∀ other found, disk.nodes other = some found → (∀ inside, found ≠ .file inside) →
      (disk.put location (.file content)).nodes other = some found := by
    intro other found here plain
    rw [put_nodes, if_neg, here]
    rintro rfl
    rw [present] at here
    exact plain old (Option.some.inj here).symm
  refine ⟨⟨⟨kept _ _ mounted.rooted.root (by simp), fun name place found there => ?_⟩, kept _ _ mounted.base (by simp)⟩,
    ⟨fun other found => kept other _ found (by simp), fun other _ _ found => kept other _ found (by simp), ?_⟩⟩
  · rw [put_nodes] at there
    split at there
    · next same => exact kept _ _ (mounted.rooted.parent name place (.file old) (same ▸ present)) (by simp)
    · exact kept _ _ (mounted.rooted.parent name place found there) (by simp)
  · intro other inside found
    rw [put_nodes]
    split
    · exact ⟨content, rfl⟩
    · exact ⟨inside, found⟩

/-! ### What each operation leaves -/

variable {start : Location α}

theorem ensureDirectory_extends (mounted : Mounted base disk.nodes) (path : List (Part α))
    (started : disk.nodes start = some .directory) : Extends base disk (ensureDirectory links start path disk).1 := by
  rw [ensureDirectory]
  split
  · exact Extends.refl mounted
  · split
    · next missing =>
        have lands := @walk_lands α β disk.nodes false start path links mounted.rooted started
        rw [missing] at lands
        exact put_missing_extends mounted _ lands.1 lands.2
    · exact Extends.refl mounted

theorem createDirectories_extends (mounted : Mounted base disk.nodes) (path : List (Part α))
    (started : disk.nodes start = some .directory) : Extends base disk (createDirectories links start path disk).1 := by
  rw [createDirectories]
  generalize fronts path = paths
  induction paths generalizing disk with
  | nil => exact Extends.refl mounted
  | cons front paths ih =>
      have first := @ensureDirectory_extends α β _ disk base links start mounted front started
      rw [ensureDirectories, Outcome.andThen]
      split
      · exact first.trans (ih first.mounted (first.grows.directory _ started))
      · exact first

theorem writeFile_extends (mounted : Mounted base disk.nodes) (path : List (Part α)) (content : β)
    (started : disk.nodes start = some .directory) : Extends base disk (writeFile links start path content disk).1 := by
  have lands := @walk_lands α β disk.nodes true start path links mounted.rooted started
  rw [writeFile]
  cases walked : walk disk.nodes true links start path with
  | found location =>
      rw [walked] at lands
      obtain ⟨⟨node, present⟩, plain⟩ := lands
      cases node with
      | directory =>
          simp only [isDirectory, present, if_true]
          exact Extends.refl mounted
      | file old =>
          simp only [isDirectory, present, Bool.false_eq_true, if_false]
          exact put_file_extends mounted present
      | link absolute target => exact absurd present (plain rfl absolute target)
  | missing directory value =>
      rw [walked] at lands
      exact put_missing_extends mounted _ lands.1 lands.2
  | failed => exact Extends.refl mounted

/-- Where a path leads, when that is a file. -/
def readFile (links : Nat) (start : Location α) (path : List (Part α)) (nodes : Nodes α β) : Option β :=
  match walk nodes true links start path with
  | .found location =>
      match nodes location with
      | some (.file content) => some content
      | _ => none
  | _ => none

/-- What was written is read again. -/
theorem readFile_writeFile (mounted : Mounted base disk.nodes) {content : β} (started : disk.nodes start = some .directory)
    (written : (writeFile links start path content disk).2 = true) :
    readFile links start path (writeFile links start path content disk).1.nodes = some content := by
  have lands := @walk_lands α β disk.nodes true start path links mounted.rooted started
  have grows := (@writeFile_extends α β _ disk base links start mounted path content started).grows
  rw [writeFile] at written grows ⊢
  cases walked : walk disk.nodes true links start path with
  | found location =>
      rw [walked] at lands written grows
      obtain ⟨⟨node, present⟩, plain⟩ := lands
      cases node with
      | directory => simp [isDirectory, present] at written
      | file old =>
          simp only [isDirectory, present, Bool.false_eq_true, if_false] at grows ⊢
          rw [readFile, walk_grows grows walked]
          simp only [put_nodes, if_true]
      | link absolute target => exact absurd present (plain rfl absolute target)
  | missing directory value =>
      rw [walked] at grows
      simp only at grows ⊢
      have created : (disk.put (value :: directory) (.file content)).nodes (value :: directory) = some (.file content) := by
        rw [put_nodes, if_pos rfl]
      rw [readFile, walk_created grows created (fun _ _ same => by cases same) walked]
      simp only [created]
  | failed =>
      rw [walked] at written
      cases written

/-! ### What was made is found -/

theorem ensureDirectory_found (mounted : Mounted base disk.nodes) (started : disk.nodes start = some .directory)
    (made : (ensureDirectory links start path disk).2 = true) :
    ∃ place, walk (ensureDirectory links start path disk).1.nodes true links start path = .found place := by
  have lands := @walk_lands α β disk.nodes false start path links mounted.rooted started
  rw [ensureDirectory] at made ⊢
  split at made
  · next place found => exact ⟨place, found⟩
  · split at made
    · next directory value missing =>
        rw [missing] at lands
        have grows := (put_missing_extends mounted .directory lands.1 lands.2).grows
        have created : (disk.put (value :: directory) .directory).nodes (value :: directory) = some .directory := by
          rw [put_nodes, if_pos rfl]
        exact ⟨_, walk_created grows created (fun _ _ same => by cases same) (walk_missing_followed missing)⟩
    · cases made

theorem ensureDirectories_found {paths : List (List (Part α))} (mounted : Mounted base disk.nodes)
    (started : disk.nodes start = some .directory) (made : (ensureDirectories links start paths disk).2 = true) :
    Extends base disk (ensureDirectories links start paths disk).1 ∧
      ∀ path ∈ paths, ∃ place, walk (ensureDirectories links start paths disk).1.nodes true links start path = .found place := by
  induction paths generalizing disk with
  | nil => exact ⟨Extends.refl mounted, fun path none => by cases none⟩
  | cons front paths ih =>
      have first := @ensureDirectory_extends α β _ disk base links start mounted front started
      rw [ensureDirectories, Outcome.andThen] at made ⊢
      cases done : (ensureDirectory links start front disk).2 with
      | false =>
          rw [done] at made
          exact absurd (made.symm.trans done) (by decide)
      | true =>
          rw [done] at made
          simp only [if_true] at made ⊢
          obtain ⟨further, each⟩ := ih first.mounted (first.grows.directory _ started) made
          refine ⟨first.trans further, fun path member => ?_⟩
          rcases List.mem_cons.mp member with rfl | later
          · obtain ⟨place, found⟩ := ensureDirectory_found mounted started done
            exact ⟨place, walk_grows further.grows found⟩
          · exact each path later

/-- A path whose directories were made leads to the last of them. -/
theorem createDirectories_found (mounted : Mounted base disk.nodes) (started : disk.nodes start = some .directory)
    (made : (createDirectories links start path disk).2 = true) :
    ∃ place, walk (createDirectories links start path disk).1.nodes true links start path = .found place := by
  cases parts : path with
  | nil =>
      cases links with
      | zero => exact ⟨start, rfl⟩
      | succ links => exact ⟨start, rfl⟩
  | cons part rest =>
      rw [← parts]
      apply (ensureDirectories_found mounted started made).2
      rw [fronts, parts, List.inits]
      exact List.mem_map.mpr ⟨rest, (List.mem_inits _ _).mpr (List.prefix_refl _), rfl⟩

/-- `copy_file` with `overwrite_existing`: from a regular file to another one, or to where
nothing is. -/
def copyFile (links : Nat) (sourceStart : Location α) (source : List (Part α)) (start : Location α)
    (path : List (Part α)) (disk : Disk α β) : Outcome α β :=
  match readFile links sourceStart source disk.nodes with
  | none => (disk, false)
  | some content =>
      if walk disk.nodes true links start path = walk disk.nodes true links sourceStart source then (disk, false)
      else writeFile links start path content disk

theorem copyFile_extends (mounted : Mounted base disk.nodes) (sourceStart : Location α) (source path : List (Part α))
    (started : disk.nodes start = some .directory) :
    Extends base disk (copyFile links sourceStart source start path disk).1 := by
  rw [copyFile]
  split
  · exact Extends.refl mounted
  · split
    · exact Extends.refl mounted
    · exact writeFile_extends mounted path _ started

theorem copyFile_writes {sourceStart : Location α} {source : List (Part α)}
    (copied : (copyFile links sourceStart source start path disk).2 = true) :
    ∃ content, readFile links sourceStart source disk.nodes = some content ∧
      (writeFile links start path content disk).2 = true ∧
      (copyFile links sourceStart source start path disk).1 = (writeFile links start path content disk).1 := by
  rw [copyFile] at copied ⊢
  cases origin : readFile links sourceStart source disk.nodes with
  | none =>
      rw [origin] at copied
      cases copied
  | some content =>
      rw [origin] at copied
      simp only at copied ⊢
      split at copied
      · cases copied
      · next apart =>
          rw [if_neg apart]
          exact ⟨content, rfl, copied, rfl⟩

end Operations

/-! ## Changes on record -/

/-- Everything that is not as it was in the beginning was touched. -/
def Disk.Logged (initial : Nodes α β) (disk : Disk α β) : Prop :=
  ∀ location, location ∉ disk.touched → disk.nodes location = initial location

section Logged

variable [DecidableEq α] {initial : Nodes α β} {disk : Disk α β} {links : Nat} {start : Location α} {path : List (Part α)}

theorem put_logged (logged : disk.Logged initial) (location : Location α) (node : Node α β) :
    (disk.put location node).Logged initial := by
  intro other fresh
  rw [Disk.put, List.mem_append, List.mem_singleton, not_or] at fresh
  rw [put_nodes, if_neg fresh.2]
  exact logged other fresh.1

theorem ensureDirectories_logged {paths : List (List (Part α))} (logged : disk.Logged initial) :
    (ensureDirectories links start paths disk).1.Logged initial := by
  induction paths generalizing disk with
  | nil => exact logged
  | cons path paths ih =>
      have first : (ensureDirectory links start path disk).1.Logged initial := by
        rw [ensureDirectory]
        split
        · exact logged
        · split
          · exact put_logged logged _ _
          · exact logged
      rw [ensureDirectories, Outcome.andThen]
      split
      · exact ih first
      · exact first

theorem writeFile_logged (logged : disk.Logged initial) (content : β) :
    (writeFile links start path content disk).1.Logged initial := by
  rw [writeFile]
  split
  · split
    · exact logged
    · exact put_logged logged _ _
  · exact put_logged logged _ _
  · exact logged

theorem copyFile_logged (logged : disk.Logged initial) (sourceStart : Location α) (source : List (Part α)) :
    (copyFile links sourceStart source start path disk).1.Logged initial := by
  rw [copyFile]
  split
  · exact logged
  · split
    · exact logged
    · exact writeFile_logged logged _

end Logged

end ReqPack.Data.FileSystem
