import Mathlib.Data.List.Infix
import ReqPack.Data.FileSystem

/-! # Paths as texts

What can be said of a path without looking at a disk: its normal form and which paths
lie below it.  A slash at the end is an element of the path; it tells the directory
`a/` from `a` wherever elements are compared.
-/

namespace ReqPack.Data

universe u

/-- The elements of a path between its slashes, and whether slashes end it. -/
structure LexicalPath (α : Type u) where
  absolute : Bool := false
  parts : List (FileSystem.Part α) := []
  trailing : Bool := false
deriving DecidableEq, Repr

namespace LexicalPath

variable {α : Type u}

section Normal

def isEmpty (path : LexicalPath α) : Bool := !path.absolute && path.parts.isEmpty

/-- An absolute path replaces the one it is appended to. -/
def append (base added : LexicalPath α) : LexicalPath α :=
  if added.absolute then added
  else if added.parts.isEmpty then { base with trailing := !base.parts.isEmpty }
  else { absolute := base.absolute, parts := base.parts ++ added.parts, trailing := added.trailing }

/-- The last part so far stands first; above the root there is nothing. -/
def pushPart (absolute : Bool) (stack : List (FileSystem.Part α)) : FileSystem.Part α → List (FileSystem.Part α)
  | .here => stack
  | .name value => .name value :: stack
  | .up =>
      match stack with
      | .name _ :: rest => rest
      | [] => if absolute then [] else [.up]
      | other => .up :: other

/-- The parts that are left in the normal form. -/
def normalParts (path : LexicalPath α) : List (FileSystem.Part α) :=
  (path.parts.foldl (pushPart path.absolute) []).reverse

def endsInDots (path : LexicalPath α) : Bool :=
  match path.parts.getLast? with
  | some .here => true
  | some .up => true
  | _ => false

/-- The path ends as a directory does. -/
def endsOpen (path : LexicalPath α) : Bool := path.trailing || path.endsInDots

def isName : FileSystem.Part α → Bool
  | .name _ => true
  | _ => false

/-- The normal form keeps a slash behind a name. -/
def closes (path : LexicalPath α) : Bool :=
  path.endsOpen && path.normalParts.getLast?.any isName

/-- `std::filesystem::path::lexically_normal`. -/
def lexicallyNormal (path : LexicalPath α) : LexicalPath α :=
  if path.isEmpty then path
  else
    { absolute := path.absolute
      parts := if !path.absolute && path.normalParts.isEmpty then [.here] else path.normalParts
      trailing := path.closes }

end Normal

section Prefixes

/-- What an iteration over a path visits. -/
inductive Element (α : Type u) where
  | root
  | part (value : FileSystem.Part α)
  | nothing
deriving DecidableEq

def elements (path : LexicalPath α) : List (Element α) :=
  (if path.absolute then [.root] else []) ++ path.parts.map .part ++ (if path.trailing then [.nothing] else [])

/-- `path_has_prefix`. -/
def hasPrefix [DecidableEq α] (path start : LexicalPath α) : Bool :=
  !start.isEmpty && start.elements.isPrefixOf path.elements

/-- The path lies in the directory or is the directory, by their normal forms. -/
def Inside (directory path : LexicalPath α) : Prop :=
  directory.absolute = path.absolute ∧ directory.normalParts <+: path.normalParts

/-- Elements start alike when the parts do, and a slash has to be met by a slash. -/
theorem map_part_prefix_iff (front back : List (FileSystem.Part α)) (trailing other : Bool) :
    front.map Element.part ++ (if trailing then [.nothing] else []) <+:
        back.map Element.part ++ (if other then [.nothing] else []) ↔
      if trailing then front = back ∧ other = true else front <+: back := by
  induction front generalizing back with
  | nil => cases back <;> cases trailing <;> cases other <;> simp
  | cons part front ih =>
      cases back with
      | nil => cases trailing <;> cases other <;> simp
      | cons first back =>
          simp only [List.map_cons, List.cons_append, List.cons_prefix_cons, ih, Element.part.injEq]
          cases trailing <;> simp [and_assoc]

variable [DecidableEq α]

theorem hasPrefix_absolute {start path : LexicalPath α} (startAbsolute : start.absolute = true)
    (pathAbsolute : path.absolute = true) :
    path.hasPrefix start = true ↔
      if start.trailing then start.parts = path.parts ∧ path.trailing = true else start.parts <+: path.parts := by
  simp only [hasPrefix, isEmpty, elements, startAbsolute, pathAbsolute, Bool.not_true, Bool.false_and,
    Bool.not_false, Bool.true_and, if_true, List.isPrefixOf_iff_prefix, List.cons_append, List.nil_append,
    List.cons_prefix_cons, true_and]
  exact map_part_prefix_iff start.parts path.parts start.trailing path.trailing

/-- A relative path is no beginning of an absolute one. -/
theorem hasPrefix_relative {start path : LexicalPath α} (relative : start.absolute = false)
    (pathAbsolute : path.absolute = true) : path.hasPrefix start = false := by
  rw [Bool.eq_false_iff]
  intro leads
  simp only [hasPrefix, isEmpty, elements, relative, pathAbsolute, Bool.not_false, Bool.true_and,
    Bool.and_eq_true, Bool.not_eq_true', List.isEmpty_eq_false_iff, Bool.false_eq_true, if_false,
    if_true, List.nil_append, List.isPrefixOf_iff_prefix] at leads
  obtain ⟨present, leads⟩ := leads
  cases parts : start.parts with
  | nil => exact present parts
  | cons part rest => simp [parts] at leads

end Prefixes

section Absolute

theorem lexicallyNormal_absolute {path : LexicalPath α} (absolute : path.absolute = true) :
    path.lexicallyNormal = { absolute := true, parts := path.normalParts, trailing := path.closes } := by
  simp [lexicallyNormal, isEmpty, absolute]

@[simp] theorem lexicallyNormal_isAbsolute (path : LexicalPath α) :
    path.lexicallyNormal.absolute = path.absolute := by
  unfold lexicallyNormal
  split <;> rfl

/-- Below the root only names are left. -/
theorem foldl_pushPart_names (parts : List (FileSystem.Part α)) {stack : List (FileSystem.Part α)}
    (names : ∀ part ∈ stack, isName part = true) :
    ∀ part ∈ parts.foldl (pushPart true) stack, isName part = true := by
  induction parts generalizing stack with
  | nil => exact names
  | cons part parts ih =>
      refine ih fun other member => ?_
      cases part with
      | here => exact names other member
      | name value =>
          rcases List.mem_cons.mp member with rfl | below
          · rfl
          · exact names other below
      | up =>
          cases stack with
          | nil => simp [pushPart] at member
          | cons top rest =>
              cases top with
              | name value => exact names other (List.mem_cons_of_mem _ member)
              | up => simp [isName] at names
              | here => simp [isName] at names

theorem normalParts_names {path : LexicalPath α} (absolute : path.absolute = true) :
    ∀ part ∈ path.normalParts, isName part = true := by
  intro part member
  rw [normalParts, absolute, List.mem_reverse] at member
  exact foldl_pushPart_names path.parts (by simp) part member

theorem closes_absolute {path : LexicalPath α} (absolute : path.absolute = true) :
    path.closes = (path.endsOpen && !path.normalParts.isEmpty) := by
  have names := normalParts_names absolute
  rw [closes]
  congr 1
  cases last : path.normalParts.getLast? with
  | none => simp [List.getLast?_eq_none_iff.mp last]
  | some part =>
      have member := List.mem_of_getLast? last
      have present : path.normalParts ≠ [] := List.ne_nil_of_mem member
      simp [names part member, present]

variable [DecidableEq α]

/-- A normal path starts like a normal one when it lies in it; if that ends with a slash, only
when it is the same directory. -/
theorem hasPrefix_normal_iff {base path : LexicalPath α} (baseAbsolute : base.absolute = true)
    (pathAbsolute : path.absolute = true) :
    path.lexicallyNormal.hasPrefix base.lexicallyNormal = true ↔
      if base.closes then base.normalParts = path.normalParts ∧ path.closes = true
      else base.normalParts <+: path.normalParts := by
  rw [hasPrefix_absolute (by simpa using baseAbsolute) (by simpa using pathAbsolute),
    lexicallyNormal_absolute baseAbsolute, lexicallyNormal_absolute pathAbsolute]

end Absolute

section Roots

theorem normalParts_child (base : LexicalPath α) (value : α) (trailing : Bool) :
    normalParts { base with parts := base.parts ++ [.name value], trailing := trailing } =
      base.normalParts ++ [.name value] := by
  simp [normalParts, List.foldl_append, pushPart]

variable [DecidableEq α]

/-- Only paths inside the directory begin with the base. -/
def Confines (directory base : LexicalPath α) : Prop :=
  ∀ path : LexicalPath α, path.absolute = true → path.lexicallyNormal.hasPrefix base.lexicallyNormal = true →
    Inside directory path

/-- Slashes at the end of the base make no difference. -/
def SlashBlind (base : LexicalPath α) : Prop :=
  ∀ other : LexicalPath α, other.absolute = base.absolute → other.parts = base.parts →
    ∀ path : LexicalPath α, path.absolute = true → path.lexicallyNormal.hasPrefix other.lexicallyNormal = path.lexicallyNormal.hasPrefix base.lexicallyNormal

theorem hasPrefix_of_relative {base path : LexicalPath α} (relative : base.absolute = false)
    (pathAbsolute : path.absolute = true) : path.lexicallyNormal.hasPrefix base.lexicallyNormal = false :=
  hasPrefix_relative (by simpa using relative) (by simpa using pathAbsolute)

theorem confines_iff {directory base : LexicalPath α} :
    Confines directory base ↔
      (base.absolute = true → directory.absolute = true ∧ directory.normalParts <+: base.normalParts) := by
  constructor
  · intro confines absolute
    have itself : base.lexicallyNormal.hasPrefix base.lexicallyNormal = true := by
      rw [hasPrefix_normal_iff absolute absolute]
      split
      · rename_i closed
        exact ⟨rfl, closed⟩
      · exact List.prefix_rfl
    obtain ⟨same, inside⟩ := confines base absolute itself
    exact ⟨same.trans absolute, inside⟩
  · intro inside path pathAbsolute starts
    cases absolute : base.absolute with
    | false => simp [hasPrefix_of_relative absolute pathAbsolute] at starts
    | true =>
        obtain ⟨directoryAbsolute, below⟩ := inside absolute
        refine ⟨directoryAbsolute.trans pathAbsolute.symm, ?_⟩
        rw [hasPrefix_normal_iff absolute pathAbsolute] at starts
        split at starts
        · exact starts.1 ▸ below
        · exact below.trans starts

theorem slashBlind_iff {base : LexicalPath α} :
    SlashBlind base ↔ (base.absolute = true → base.normalParts = [] ∨ base.endsInDots = true) := by
  constructor
  · intro blind absolute
    by_contra! differs
    obtain ⟨named, plain⟩ := differs
    have noDots : base.endsInDots = false := by simpa using plain
    obtain ⟨part, member⟩ := List.exists_mem_of_ne_nil _ named
    -- a child of the base lies below it only as long as no slash was written
    cases part with
    | up => simpa [isName] using normalParts_names absolute _ member
    | here => simpa [isName] using normalParts_names absolute _ member
    | name value =>
        let child : LexicalPath α := { base with parts := base.parts ++ [.name value], trailing := false }
        have parts : child.normalParts = base.normalParts ++ [.name value] := normalParts_child base value false
        let open_ : LexicalPath α := { base with trailing := false }
        let slashed : LexicalPath α := { base with trailing := true }
        have openAbsolute : open_.absolute = true := absolute
        have slashedAbsolute : slashed.absolute = true := absolute
        have childAbsolute : child.absolute = true := absolute
        have closed : slashed.closes = true := by
          have present : slashed.normalParts ≠ [] := named
          rw [closes_absolute slashedAbsolute]
          simpa [endsOpen, slashed] using present
        have opened : open_.closes = false := by
          rw [closes_absolute openAbsolute, Bool.and_eq_false_iff]
          exact Or.inl noDots
        have withSlash := blind slashed rfl rfl child absolute
        have without := blind open_ rfl rfl child absolute
        have below : child.lexicallyNormal.hasPrefix open_.lexicallyNormal = true := by
          rw [hasPrefix_normal_iff openAbsolute childAbsolute, opened, parts]
          exact List.prefix_append _ _
        rw [← withSlash, below, eq_comm, hasPrefix_normal_iff slashedAbsolute childAbsolute, closed, if_pos rfl,
          parts] at without
        have same : slashed.normalParts = base.normalParts := rfl
        rw [same] at without
        have longer := congrArg List.length without.1
        rw [List.length_append, List.length_singleton] at longer
        omega
  · intro same other otherAbsolute otherParts path pathAbsolute
    cases absolute : base.absolute with
    | false =>
        rw [hasPrefix_of_relative absolute pathAbsolute,
          hasPrefix_of_relative (otherAbsolute.trans absolute) pathAbsolute]
    | true =>
        have normal : other.normalParts = base.normalParts := by
          rw [normalParts, normalParts, otherParts, otherAbsolute]
        have dots : other.endsInDots = base.endsInDots := by rw [endsInDots, endsInDots, otherParts]
        have closed : other.closes = base.closes := by
          rw [closes_absolute absolute, closes_absolute (otherAbsolute.trans absolute), normal, endsOpen, endsOpen, dots]
          rcases same absolute with empty | ends
          · simp [empty]
          · simp [ends]
        rw [lexicallyNormal_absolute absolute, lexicallyNormal_absolute (otherAbsolute.trans absolute), normal, closed]

end Roots

end LexicalPath

end ReqPack.Data
