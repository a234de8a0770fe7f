import Mathlib.Data.List.Infix
import Mathlib.Logic.Function.Basic

/-! # File systems with symbolic links

A file system gives a node to every location, the list of the names from the root with
the last one first.  Paths are resolved component by component; the number of links that
may be followed on the way is bounded.  Nothing here knows which program the paths come
from.
-/

namespace ReqPack.Data.FileSystem

universe u v

/-- A component of a path. -/
inductive Part (α : Type u)
  | name (value : α)
  /-- `..` -/
  | up
  /-- `.`, and the end of a path with a slash behind it -/
  | here
deriving DecidableEq, Repr

inductive Node (α : Type u) (β : Type v)
  | directory
  | file (content : β)
  | link (absolute : Bool) (target : List (Part α))
deriving DecidableEq, Repr

abbrev Location (α : Type u) := List α

abbrev Nodes (α : Type u) (β : Type v) := Location α → Option (Node α β)

/-- Where a path leads. -/
inductive Walk (α : Type u)
  | found (location : Location α)
  /-- only the last component does not exist -/
  | missing (directory : Location α) (name : α)
  | failed
deriving DecidableEq, Repr

variable {α : Type u} {β : Type v}

/-- Walk up to the first link that is followed. -/
def walkParts (nodes : Nodes α β) (follow : Bool) (again : Location α → List (Part α) → Walk α) :
    Location α → List (Part α) → Walk α
  | location, [] => .found location
  | location, .here :: rest => walkParts nodes follow again location rest
  | location, .up :: rest => walkParts nodes follow again location.tail rest
  | location, .name value :: rest =>
      match nodes (value :: location) with
      | none => if rest.isEmpty then .missing location value else .failed
      | some .directory => walkParts nodes follow again (value :: location) rest
      | some (.file _) => if rest.isEmpty then .found (value :: location) else .failed
      | some (.link absolute target) =>
          if rest.isEmpty && !follow then .found (value :: location)
          else again (if absolute then [] else location) (target ++ rest)

/-- Resolve a path from a directory; `follow` says what becomes of a link at its end, and
`links` bounds the number of links on the way. -/
def walk (nodes : Nodes α β) (follow : Bool) : Nat → Location α → List (Part α) → Walk α
  | 0 => walkParts nodes follow fun _ _ => .failed
  | links + 1 => walkParts nodes follow (walk nodes follow links)

/-! ## Paths that stay below a directory -/

section Suffixes

variable {top location : Location α}

theorem suffix_tail (below : top <:+ location) (apart : location ≠ top) : top <:+ location.tail := by
  cases location with
  | nil => exact absurd (List.suffix_nil.mp below).symm apart
  | cons value location =>
      rcases List.suffix_cons_iff.mp below with same | deeper
      · exact absurd same.symm apart
      · exact deeper

theorem suffix_cons (below : top <:+ location) (value : α) : top <:+ value :: location :=
  below.trans (List.suffix_cons value location)

end Suffixes

section Links

variable {nodes other : Nodes α β}

/-- Two file systems have the same links. -/
def SameLinks (nodes other : Nodes α β) : Prop :=
  ∀ location absolute target, nodes location = some (.link absolute target) ↔
    other location = some (.link absolute target)

theorem SameLinks.symm (same : SameLinks nodes other) : SameLinks other nodes :=
  fun location absolute target => (same location absolute target).symm

theorem SameLinks.trans {third : Nodes α β} (first : SameLinks nodes other) (second : SameLinks other third) :
    SameLinks nodes third :=
  fun location absolute target => (first location absolute target).trans (second location absolute target)

end Links

section Confinement

variable [DecidableEq α]

/-- The way of a path up to the first link does not go up from the top directory. -/
def confinedParts (nodes : Nodes α β) (follow : Bool) (top : Location α)
    (again : Location α → List (Part α) → Bool) : Location α → List (Part α) → Bool
  | _, [] => true
  | location, .here :: rest => confinedParts nodes follow top again location rest
  | location, .up :: rest => location != top && confinedParts nodes follow top again location.tail rest
  | location, .name value :: rest =>
      match nodes (value :: location) with
      | some (.link absolute target) =>
          (rest.isEmpty && !follow) || (!absolute && again location (target ++ rest))
      | _ => confinedParts nodes follow top again (value :: location) rest

/-- On its way through the links the path never goes up from the top directory. -/
def confined (nodes : Nodes α β) (follow : Bool) (top : Location α) : Nat → Location α → List (Part α) → Bool
  | 0 => confinedParts nodes follow top fun _ _ => true
  | links + 1 => confinedParts nodes follow top (confined nodes follow top links)

/-- The place a path leads to lies in the top directory. -/
def Walk.Inside (top : Location α) : Walk α → Prop
  | .found location => top <:+ location
  | .missing directory _ => top <:+ directory
  | .failed => True

variable {nodes other : Nodes α β} {follow : Bool} {top location : Location α} {parts rest : List (Part α)}

theorem walkParts_inside {again : Location α → List (Part α) → Walk α}
    {againConfined : Location α → List (Part α) → Bool}
    (inside : ∀ location parts, againConfined location parts = true → top <:+ location →
      (again location parts).Inside top)
    (stays : confinedParts nodes follow top againConfined location parts = true) (below : top <:+ location) :
    (walkParts nodes follow again location parts).Inside top := by
  induction parts generalizing location with
  | nil => exact below
  | cons part rest ih =>
      cases part with
      | here => exact ih stays below
      | up =>
          rw [confinedParts, Bool.and_eq_true, bne_iff_ne] at stays
          exact ih stays.2 (suffix_tail below stays.1)
      | name value =>
          rw [confinedParts] at stays
          rw [walkParts]
          cases node : nodes (value :: location) with
          | none =>
              simp only
              split
              · exact below
              · exact True.intro
          | some found =>
              rw [node] at stays
              cases found with
              | directory => exact ih stays (suffix_cons below value)
              | file content =>
                  simp only
                  split
                  · exact suffix_cons below value
                  · exact True.intro
              | link absolute target =>
                  simp only at stays ⊢
                  cases last : rest.isEmpty && !follow with
                  | true => exact suffix_cons below value
                  | false =>
                      rw [last, Bool.false_or, Bool.and_eq_true, Bool.not_eq_true'] at stays
                      rw [stays.1]
                      exact inside _ _ stays.2 below

/-- A path that stays below the top directory leads to a place in it. -/
theorem walk_inside {links : Nat} (stays : confined nodes follow top links location parts = true)
    (below : top <:+ location) : (walk nodes follow links location parts).Inside top := by
  induction links generalizing location parts with
  | zero => exact walkParts_inside (fun _ _ _ _ => True.intro) stays below
  | succ links ih => exact walkParts_inside (fun _ _ next start => ih next start) stays below

theorem confinedParts_append {again againFront : Location α → List (Part α) → Bool}
    (front : ∀ location parts, again location (parts ++ rest) = true → againFront location parts = true)
    (more : rest ≠ []) (stays : confinedParts nodes follow top again location (parts ++ rest) = true) :
    confinedParts nodes true top againFront location parts = true := by
  induction parts generalizing location with
  | nil => rfl
  | cons part parts ih =>
      cases part with
      | here => exact ih stays
      | up =>
          rw [List.cons_append, confinedParts, Bool.and_eq_true] at stays
          rw [confinedParts, Bool.and_eq_true]
          exact ⟨stays.1, ih stays.2⟩
      | name value =>
          rw [List.cons_append, confinedParts] at stays
          rw [confinedParts]
          have present : (parts ++ rest).isEmpty = false := by simp [more]
          cases node : nodes (value :: location) with
          | none =>
              rw [node] at stays
              exact ih stays
          | some found =>
              rw [node] at stays
              cases found with
              | directory => exact ih stays
              | file content => exact ih stays
              | link absolute target =>
                  simp only [present, Bool.false_and, Bool.false_or, Bool.and_eq_true] at stays
                  simp only [Bool.not_true, Bool.and_false, Bool.false_or, Bool.and_eq_true]
                  refine ⟨stays.1, front _ _ ?_⟩
                  rw [List.append_assoc]
                  exact stays.2

/-- The front of a path stays where the whole path stays. -/
theorem confined_append {links : Nat} (more : rest ≠ [])
    (stays : confined nodes follow top links location (parts ++ rest) = true) :
    confined nodes true top links location parts = true := by
  induction links generalizing location parts with
  | zero => exact confinedParts_append (fun _ _ _ => rfl) more stays
  | succ links ih => exact confinedParts_append (fun _ _ next => ih next) more stays

theorem confinedParts_unfollowed {again againUnfollowed : Location α → List (Part α) → Bool}
    (weaker : ∀ location parts, again location parts = true → againUnfollowed location parts = true)
    (stays : confinedParts nodes true top again location parts = true) :
    confinedParts nodes false top againUnfollowed location parts = true := by
  induction parts generalizing location with
  | nil => rfl
  | cons part parts ih =>
      cases part with
      | here => exact ih stays
      | up =>
          rw [confinedParts, Bool.and_eq_true] at stays ⊢
          exact ⟨stays.1, ih stays.2⟩
      | name value =>
          rw [confinedParts] at stays ⊢
          cases node : nodes (value :: location) with
          | none =>
              rw [node] at stays
              exact ih stays
          | some found =>
              rw [node] at stays
              cases found with
              | directory => exact ih stays
              | file content => exact ih stays
              | link absolute target =>
                  simp only [Bool.not_true, Bool.and_false, Bool.false_or, Bool.and_eq_true] at stays
                  simp only [Bool.or_eq_true, Bool.and_eq_true]
                  exact Or.inr ⟨stays.1, weaker _ _ stays.2⟩

/-- A link at the end counts only when it is followed. -/
theorem confined_unfollowed {links : Nat} (stays : confined nodes true top links location parts = true) :
    confined nodes false top links location parts = true := by
  induction links generalizing location parts with
  | zero => exact confinedParts_unfollowed (fun _ _ _ => rfl) stays
  | succ links ih => exact confinedParts_unfollowed (fun _ _ next => ih next) stays

theorem confinedParts_sameLinks {again againOther : Location α → List (Part α) → Bool} (same : SameLinks nodes other)
    (next : ∀ location parts, again location parts = true → againOther location parts = true)
    (stays : confinedParts nodes follow top again location parts = true) :
    confinedParts other follow top againOther location parts = true := by
  induction parts generalizing location with
  | nil => rfl
  | cons part parts ih =>
      cases part with
      | here => exact ih stays
      | up =>
          rw [confinedParts, Bool.and_eq_true] at stays ⊢
          exact ⟨stays.1, ih stays.2⟩
      | name value =>
          rw [confinedParts] at stays ⊢
          have linked := same (value :: location)
          split at stays
          · rename_i absolute target node
            rw [(linked absolute target).mp node]
            simp only [Bool.or_eq_true, Bool.and_eq_true] at stays ⊢
            exact stays.imp_right fun both => ⟨both.1, next _ _ both.2⟩
          · rename_i unlinked
            split
            · rename_i absolute target node
              exact absurd ((linked absolute target).mpr node) (unlinked absolute target)
            · exact ih stays

/-- Whether a path stays below a directory is a matter of the links alone. -/
theorem confined_sameLinks {links : Nat} (same : SameLinks nodes other)
    (stays : confined nodes follow top links location parts = true) :
    confined other follow top links location parts = true := by
  induction links generalizing location parts with
  | zero => exact confinedParts_sameLinks same (fun _ _ _ => rfl) stays
  | succ links ih => exact confinedParts_sameLinks same (fun _ _ further => ih further) stays

end Confinement

/-! ## Operations -/

/-- A file system and the locations at which something was created or overwritten. -/
structure Disk (α : Type u) (β : Type v) where
  nodes : Nodes α β
  touched : List (Location α)

/-- What is left behind an operation, and whether it succeeded. -/
abbrev Outcome (α : Type u) (β : Type v) := Disk α β × Bool

def Outcome.andThen (first : Outcome α β) (next : Disk α β → Outcome α β) : Outcome α β :=
  if first.2 then next first.1 else first

section Missing

theorem walkParts_missing {nodes : Nodes α β} {follow : Bool} {again : Location α → List (Part α) → Walk α}
    (next : ∀ location parts directory value, again location parts = .missing directory value →
      nodes (value :: directory) = none)
    {location directory : Location α} {parts : List (Part α)} {value : α}
    (missing : walkParts nodes follow again location parts = .missing directory value) :
    nodes (value :: directory) = none := by
  induction parts generalizing location with
  | nil => cases missing
  | cons part rest ih =>
      cases part with
      | here => exact ih missing
      | up => exact ih missing
      | name component =>
          rw [walkParts] at missing
          cases node : nodes (component :: location) with
          | none =>
              rw [node] at missing
              simp only at missing
              split at missing
              · cases missing
                exact node
              · cases missing
          | some found =>
              rw [node] at missing
              cases found with
              | directory => exact ih missing
              | file content =>
                  simp only at missing
                  split at missing <;> cases missing
              | link absolute target =>
                  simp only at missing
                  split at missing
                  · cases missing
                  · exact next _ _ _ _ missing

/-- The last component of a path that leads nowhere does not exist. -/
theorem walk_missing {nodes : Nodes α β} {follow : Bool} {links : Nat} {location directory : Location α}
    {parts : List (Part α)} {value : α} (missing : walk nodes follow links location parts = .missing directory value) :
    nodes (value :: directory) = none := by
  induction links generalizing location parts directory value with
  | zero => exact walkParts_missing (fun _ _ _ _ failed => by cases failed) missing
  | succ links ih => exact walkParts_missing (fun _ _ _ _ later => ih later) missing

end Missing

section Operations

variable [DecidableEq α]

def Disk.put (disk : Disk α β) (location : Location α) (node : Node α β) : Disk α β :=
  ⟨Function.update disk.nodes location (some node), disk.touched ++ [location]⟩

def isDirectory (nodes : Nodes α β) (location : Location α) : Bool :=
  match nodes location with
  | some .directory => true
  | _ => false

/-- `mkdir` of one component, unless the path leads to a directory already. -/
def ensureDirectory (links : Nat) (base : Location α) (path : List (Part α)) (disk : Disk α β) : Outcome α β :=
  match walk disk.nodes true links base path with
  | .found location => (disk, isDirectory disk.nodes location)
  | _ =>
      match walk disk.nodes false links base path with
      | .missing directory value => (disk.put (value :: directory) .directory, true)
      | _ => (disk, false)

def ensureDirectories (links : Nat) (base : Location α) : List (List (Part α)) → Disk α β → Outcome α β
  | [], disk => (disk, true)
  | path :: paths, disk => (ensureDirectory links base path disk).andThen (ensureDirectories links base paths)

/-- The paths to the components of a path, one after another. -/
def fronts (path : List (Part α)) : List (List (Part α)) := path.inits.tail

/-- `create_directories`: the components that do not exist, from the front. -/
def createDirectories (links : Nat) (base : Location α) (path : List (Part α)) (disk : Disk α β) : Outcome α β :=
  ensureDirectories links base (fronts path) disk

/-- `create_symlink`: a link at the end of the path is in the way like anything else. -/
def createSymlink (links : Nat) (base : Location α) (absolute : Bool) (target path : List (Part α))
    (disk : Disk α β) : Outcome α β :=
  match walk disk.nodes false links base path with
  | .missing directory value => (disk.put (value :: directory) (.link absolute target), true)
  | _ => (disk, false)

/-- Open a file for writing, creating or truncating it, and write the content. -/
def writeFile (links : Nat) (base : Location α) (path : List (Part α)) (content : β) (disk : Disk α β) :
    Outcome α β :=
  match walk disk.nodes true links base path with
  | .found location =>
      if isDirectory disk.nodes location then (disk, false) else (disk.put location (.file content), true)
  | .missing directory value => (disk.put (value :: directory) (.file content), true)
  | .failed => (disk, false)

/-- Everything that was touched lies in the top directory. -/
def Disk.Within (top : Location α) (disk : Disk α β) : Prop := ∀ location ∈ disk.touched, top <:+ location

variable {top base : Location α} {links : Nat} {disk : Disk α β} {path : List (Part α)}

theorem Disk.Within.put {location : Location α} {node : Node α β} (within : disk.Within top)
    (inside : top <:+ location) : (disk.put location node).Within top := by
  intro touched member
  rcases List.mem_append.mp member with before | now
  · exact within touched before
  · rw [List.mem_singleton.mp now]
    exact inside

theorem put_sameLinks {location : Location α} {node : Node α β} (absent : disk.nodes location = none)
    (plain : ∀ absolute target, node ≠ .link absolute target) :
    SameLinks disk.nodes (disk.put location node).nodes := by
  intro other absolute target
  by_cases same : other = location
  · subst same
    simp [Disk.put, absent, plain]
  · simp [Disk.put, same]

/-- A directory is made in the top directory, and no link changes. -/
theorem ensureDirectory_within (stays : confined disk.nodes true top links base path = true)
    (below : top <:+ base) (within : disk.Within top) :
    (ensureDirectory links base path disk).1.Within top ∧
      SameLinks disk.nodes (ensureDirectory links base path disk).1.nodes := by
  have unfollowed := walk_inside (confined_unfollowed stays) below
  have kept : SameLinks disk.nodes disk.nodes := fun _ _ _ => Iff.rfl
  rw [ensureDirectory]
  split
  · exact ⟨within, kept⟩
  · split
    · rename_i directory value missing
      rw [missing] at unfollowed
      exact ⟨within.put (suffix_cons unfollowed value),
        put_sameLinks (walk_missing missing) (fun _ _ same => by cases same)⟩
    · exact ⟨within, kept⟩

theorem ensureDirectories_within {paths : List (List (Part α))}
    (stays : ∀ path ∈ paths, confined disk.nodes true top links base path = true) (below : top <:+ base)
    (within : disk.Within top) :
    (ensureDirectories links base paths disk).1.Within top ∧
      SameLinks disk.nodes (ensureDirectories links base paths disk).1.nodes := by
  induction paths generalizing disk with
  | nil => exact ⟨within, fun _ _ _ => Iff.rfl⟩
  | cons path paths ih =>
      obtain ⟨inside, same⟩ := ensureDirectory_within (stays path List.mem_cons_self) below within
      rw [ensureDirectories, Outcome.andThen]
      split
      · obtain ⟨further, also⟩ := ih (fun later member =>
          confined_sameLinks same (stays later (List.mem_cons_of_mem _ member))) inside
        exact ⟨further, same.trans also⟩
      · exact ⟨inside, same⟩

theorem createDirectories_within (stays : confined disk.nodes true top links base path = true)
    (below : top <:+ base) (within : disk.Within top) :
    (createDirectories links base path disk).1.Within top ∧
      SameLinks disk.nodes (createDirectories links base path disk).1.nodes := by
  apply ensureDirectories_within _ below within
  intro front member
  obtain ⟨rest, whole⟩ := (List.mem_inits _ _).mp (List.mem_of_mem_tail member)
  cases rest with
  | nil =>
      rw [List.append_nil] at whole
      rw [whole]
      exact stays
  | cons part rest =>
      rw [← whole] at stays
      exact confined_append (List.cons_ne_nil _ _) stays

theorem createSymlink_within {absolute : Bool} {target : List (Part α)}
    (stays : confined disk.nodes false top links base path = true) (below : top <:+ base)
    (within : disk.Within top) : (createSymlink links base absolute target path disk).1.Within top := by
  have inside := walk_inside stays below
  rw [createSymlink]
  split
  · rename_i directory value missing
    rw [missing] at inside
    exact within.put (suffix_cons inside value)
  · exact within

theorem writeFile_within {content : β} (stays : confined disk.nodes true top links base path = true)
    (below : top <:+ base) (within : disk.Within top) :
    (writeFile links base path content disk).1.Within top := by
  have inside := walk_inside stays below
  rw [writeFile]
  split
  · rename_i location found
    rw [found] at inside
    split
    · exact within
    · exact within.put inside
  · rename_i directory value missing
    rw [missing] at inside
    exact within.put (suffix_cons inside value)
  · exact within

/-! ### What is already there -/

/-- All components of the path lead to directories. -/
def Established (nodes : Nodes α β) (links : Nat) (base : Location α) (path : List (Part α)) : Prop :=
  ∀ front ∈ fronts path, ∃ location, walk nodes true links base front = .found location ∧
    isDirectory nodes location = true

/-- Nothing is made for a path whose components exist. -/
theorem createDirectories_established (established : Established disk.nodes links base path) :
    createDirectories links base path disk = (disk, true) := by
  have each : ∀ paths : List (List (Part α)), (∀ front ∈ paths, front ∈ fronts path) →
      ensureDirectories links base paths disk = (disk, true) := by
    intro paths inside
    induction paths with
    | nil => rfl
    | cons front paths ih =>
        obtain ⟨location, found, directory⟩ := established front (inside front List.mem_cons_self)
        have kept : ensureDirectory links base front disk = (disk, true) := by
          rw [ensureDirectory, found]
          simp only [directory]
        rw [ensureDirectories, kept]
        exact ih fun later member => inside later (List.mem_cons_of_mem _ member)
  exact each _ fun _ member => member

/-- The place at which a file is created or overwritten. -/
def Opens (nodes : Nodes α β) (links : Nat) (base : Location α) (path : List (Part α)) (location : Location α) : Prop :=
  (walk nodes true links base path = .found location ∧ isDirectory nodes location = false) ∨
    ∃ directory value, walk nodes true links base path = .missing directory value ∧ location = value :: directory

theorem writeFile_opens {location : Location α} {content : β} (opens : Opens disk.nodes links base path location) :
    writeFile links base path content disk = (disk.put location (.file content), true) := by
  rcases opens with ⟨found, file⟩ | ⟨directory, value, missing, rfl⟩
  · rw [writeFile, found]
    simp only [file, Bool.false_eq_true, if_false]
  · rw [writeFile, missing]

theorem ensureDirectory_touched :
    disk.touched <+: (ensureDirectory links base path disk).1.touched := by
  rw [ensureDirectory]
  split
  · exact List.prefix_refl _
  · split
    · exact List.prefix_append _ _
    · exact List.prefix_refl _

theorem createDirectories_touched :
    disk.touched <+: (createDirectories links base path disk).1.touched := by
  rw [createDirectories]
  generalize fronts path = paths
  induction paths generalizing disk with
  | nil => exact List.prefix_refl _
  | cons front paths ih =>
      have first := @ensureDirectory_touched _ _ _ base links disk front
      rw [ensureDirectories, Outcome.andThen]
      split
      · exact first.trans ih
      · exact first

theorem createSymlink_touched {absolute : Bool} {target : List (Part α)} :
    disk.touched <+: (createSymlink links base absolute target path disk).1.touched := by
  rw [createSymlink]
  split
  · exact List.prefix_append _ _
  · exact List.prefix_refl _

theorem writeFile_touched {content : β} :
    disk.touched <+: (writeFile links base path content disk).1.touched := by
  rw [writeFile]
  split
  · split
    · exact List.prefix_refl _
    · exact List.prefix_append _ _
  · exact List.prefix_append _ _
  · exact List.prefix_refl _

end Operations

end ReqPack.Data.FileSystem
