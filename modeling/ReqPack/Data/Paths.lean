import Mathlib.Data.List.Basic

/-! # Paths

A path is the list of the parts between its slashes: an absolute path begins with an
empty part, a path with a slash at its end ends in one, and so does every doubled slash
leave one behind.  Two paths are written alike exactly when their parts are the same.
-/

namespace ReqPack.Data

abbrev Path := List String

namespace Path

/-- The parts of a text. -/
def ofText (text : String) : Path :=
  if text.isEmpty then [] else (text.toList.splitOn '/').map String.ofList

def text (path : Path) : String := String.ofList (['/'].intercalate (path.map String.toList))

/-- A directory without the slash at its end. -/
def directory (path : Path) : Path :=
  if path.getLast? = some "" then path.dropLast else path

/-- The operator `/`: an absolute path replaces the one it is appended to. -/
def append (base added : Path) : Path :=
  match added with
  | [] => base.directory ++ [""]
  | "" :: _ => added
  | _ => base.directory ++ added

/-- A part that names a file or a directory. -/
def Plain (part : String) : Prop := part ≠ "" ∧ part ≠ "." ∧ part ≠ ".."

/-- The last part of the parts so far stands first. -/
def pushPart (absolute : Bool) (stack : List String) (part : String) : List String :=
  if part = "" ∨ part = "." then stack
  else if part = ".." then
    match stack with
    | [] => if absolute then [] else [".."]
    | top :: rest => if top = ".." then ".." :: top :: rest else rest
  else part :: stack

def normalParts (absolute : Bool) (parts : List String) : List String :=
  (parts.foldl (pushPart absolute) []).reverse

/-- `lexically_normal` of the path to a file. -/
def lexicallyNormal : Path → Path
  | "" :: parts => "" :: normalParts true parts
  | parts => normalParts false parts

section Normal

/-- Parts in normal form, the last one first. -/
def NormalStack (absolute : Bool) : List String → Prop
  | [] => True
  | part :: rest =>
      (Plain part ∨ (part = ".." ∧ absolute = false ∧ (rest.head?.all fun below => below == "..") = true)) ∧
        NormalStack absolute rest

theorem pushPart_plain {absolute : Bool} {stack : List String} {part : String} (plain : Plain part) :
    pushPart absolute stack part = part :: stack := by
  simp [pushPart, plain.1, plain.2.1, plain.2.2]

theorem pushPart_normal {absolute : Bool} {stack : List String} {part : String}
    (normal : NormalStack absolute stack) : NormalStack absolute (pushPart absolute stack part) := by
  by_cases nothing : part = "" ∨ part = "."
  · simp only [pushPart, nothing, if_true]
    exact normal
  · by_cases up : part = ".."
    · simp only [pushPart, up, if_true]
      cases stack with
      | nil =>
          cases absolute with
          | true => exact True.intro
          | false => exact ⟨Or.inr ⟨rfl, rfl, rfl⟩, True.intro⟩
      | cons top rest =>
          by_cases above : top = ".."
          · subst above
            rcases normal.1 with plain | ⟨_, relative, _⟩
            · exact absurd rfl plain.2.2
            · simp only [if_true]
              exact ⟨Or.inr ⟨rfl, relative, rfl⟩, normal⟩
          · simp only [above, if_false]
            exact normal.2
    · rw [not_or] at nothing
      rw [pushPart_plain ⟨nothing.1, nothing.2, up⟩]
      exact ⟨Or.inl ⟨nothing.1, nothing.2, up⟩, normal⟩

theorem foldl_normal {absolute : Bool} {parts stack : List String} (normal : NormalStack absolute stack) :
    NormalStack absolute (parts.foldl (pushPart absolute) stack) := by
  induction parts generalizing stack with
  | nil => exact normal
  | cons part parts ih => exact ih (pushPart_normal normal)

/-- Parts in normal form are left alone. -/
theorem foldl_of_normal {absolute : Bool} {stack : List String} (normal : NormalStack absolute stack) :
    stack.reverse.foldl (pushPart absolute) [] = stack := by
  induction stack with
  | nil => rfl
  | cons part rest ih =>
      rw [List.reverse_cons, List.foldl_append, ih normal.2, List.foldl_cons, List.foldl_nil]
      rcases normal.1 with plain | ⟨rfl, rfl, below⟩
      · exact pushPart_plain plain
      · cases rest with
        | nil => rfl
        | cons top rest =>
            simp only [List.head?_cons, Option.all_some, beq_iff_eq] at below
            simp [pushPart, below]

theorem normalParts_idem (absolute : Bool) (parts : List String) :
    normalParts absolute (normalParts absolute parts) = normalParts absolute parts := by
  have normal : NormalStack absolute (parts.foldl (pushPart absolute) []) := foldl_normal True.intro
  simp only [normalParts, foldl_of_normal normal]

theorem foldl_plain {absolute : Bool} {parts stack : List String} (plain : ∀ part ∈ parts, Plain part) :
    parts.foldl (pushPart absolute) stack = parts.reverse ++ stack := by
  induction parts generalizing stack with
  | nil => rfl
  | cons part parts ih =>
      rw [List.foldl_cons, pushPart_plain (plain part List.mem_cons_self),
        ih fun later member => plain later (List.mem_cons_of_mem _ member)]
      simp

theorem normalParts_append {absolute : Bool} {parts added : List String} (plain : ∀ part ∈ added, Plain part) :
    normalParts absolute (parts ++ added) = normalParts absolute parts ++ added := by
  simp [normalParts, List.foldl_append, foldl_plain plain]

/-- What only names files and directories below a path stays as it is written. -/
theorem lexicallyNormal_append {path added : Path} (plain : ∀ part ∈ added, Plain part) :
    lexicallyNormal (path ++ added) = lexicallyNormal path ++ added := by
  cases path with
  | nil =>
      cases added with
      | nil => rfl
      | cons part parts =>
          have named : part ≠ "" := (plain part List.mem_cons_self).1
          have apart := @normalParts_append false [] (part :: parts) plain
          simpa [lexicallyNormal, named, normalParts] using apart
  | cons part parts =>
      by_cases absolute : part = ""
      · subst absolute
        simp only [List.cons_append, lexicallyNormal, normalParts_append plain]
      · have relative := @normalParts_append false (part :: parts) added plain
        simpa [lexicallyNormal, absolute] using relative

theorem normalParts_head {parts : List String} : (normalParts false parts).head? ≠ some "" := by
  have normal : NormalStack false (parts.foldl (pushPart false) []) := foldl_normal True.intro
  intro first
  have member : "" ∈ parts.foldl (pushPart false) [] :=
    List.mem_reverse.mp (List.mem_of_mem_head? first)
  generalize parts.foldl (pushPart false) [] = stack at normal member
  induction stack with
  | nil => cases member
  | cons part rest ih =>
      rcases List.mem_cons.mp member with rfl | later
      · rcases normal.1 with plain | ⟨up, _⟩
        · exact plain.1 rfl
        · exact absurd up (by decide)
      · exact ih normal.2 later

theorem lexicallyNormal_idem (path : Path) : lexicallyNormal (lexicallyNormal path) = lexicallyNormal path := by
  cases path with
  | nil => rfl
  | cons part parts =>
      by_cases absolute : part = ""
      · subst absolute
        simp only [lexicallyNormal, normalParts_idem]
      · have first : lexicallyNormal (part :: parts) = normalParts false (part :: parts) := by
          simp [lexicallyNormal, absolute]
        rw [first]
        have named := @normalParts_head (part :: parts)
        have again := normalParts_idem false (part :: parts)
        generalize normalParts false (part :: parts) = normal at named again
        cases normal with
        | nil => rfl
        | cons head tail =>
            have apart : head ≠ "" := by simpa using named
            simpa [lexicallyNormal, apart] using again

/-- A path that is written as a normal one is in normal form itself. -/
theorem append_eq_normal {path added other : Path} (addedPlain : ∀ part ∈ added, Plain part)
    (otherPlain : ∀ part ∈ other, Plain part) (same : path ++ added = lexicallyNormal path ++ other) :
    lexicallyNormal path = path ∧ added = other := by
  have normal := congrArg lexicallyNormal same
  rw [lexicallyNormal_append addedPlain, lexicallyNormal_append otherPlain, lexicallyNormal_idem] at normal
  have alike : added = other := List.append_cancel_left normal
  subst alike
  exact ⟨(List.append_cancel_right same).symm, rfl⟩

end Normal

end Path

end ReqPack.Data
