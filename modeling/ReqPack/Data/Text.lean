import Mathlib.Data.List.Lex
import Mathlib.Data.Char
import Mathlib.Order.Basic

/-! # Text over an alphabet

Line-based records are written over some alphabet that holds the ASCII characters:
bytes, where strings are byte strings, or characters.  Escaping removes line breaks
from a field, so that a record can be cut into lines and a key into its parts again.
-/

namespace ReqPack.Data

/-- An ordered alphabet in which ASCII characters can be told apart. -/
class Alphabet (α : Type) extends LinearOrder α where
  symbol : Char → α
  symbol_inj : ∀ {left right : Char}, left.toNat < 128 → right.toNat < 128 →
    symbol left = symbol right → left = right
  /-- the bytes a letter is stored as -/
  octets : α → List UInt8

namespace Octets

scoped instance : Alphabet UInt8 where
  toLinearOrder := LinearOrder.lift' UInt8.toNat fun _ _ => UInt8.toNat_inj.mp
  symbol character := UInt8.ofNat character.toNat
  symbol_inj := by
    intro left right leftBound rightBound same
    have values := congrArg UInt8.toNat same
    rw [UInt8.toNat_ofNat', UInt8.toNat_ofNat', Nat.mod_eq_of_lt (by omega),
      Nat.mod_eq_of_lt (by omega)] at values
    exact Char.toNat_inj.mp values
  octets byte := [byte]

end Octets

instance : Alphabet Char where
  symbol := id
  symbol_inj _ _ same := same
  octets := String.utf8EncodeChar

/-- A literal of ASCII characters only. -/
def isAscii (literal : String) : Bool := literal.toList.all fun character => character.toNat < 128

section Symbols

variable {α : Type} [Alphabet α]

/-- A literal of the source. -/
def text (literal : String) : List α := literal.toList.map Alphabet.symbol

def newlineSymbol : α := Alphabet.symbol '\n'

def backslashSymbol : α := Alphabet.symbol '\\'

def equalsSign : α := Alphabet.symbol '='

def colon : α := Alphabet.symbol ':'

def semicolon : α := Alphabet.symbol ';'

theorem symbol_ne {left right : Char} (leftBound : left.toNat < 128) (rightBound : right.toNat < 128)
    (apart : left ≠ right) : (Alphabet.symbol left : α) ≠ Alphabet.symbol right :=
  fun same => apart (Alphabet.symbol_inj leftBound rightBound same)

/-- A literal holds a character only where it is written. -/
theorem symbol_not_mem_text {character : Char} (bound : character.toNat < 128) {literal : String}
    (ascii : isAscii literal = true) (absent : character ∉ literal.toList) :
    (Alphabet.symbol character : α) ∉ text literal := by
  intro member
  obtain ⟨other, listed, same⟩ := List.mem_map.mp member
  have otherBound : other.toNat < 128 := by simpa using List.all_eq_true.mp ascii other listed
  have found : other = character := Alphabet.symbol_inj otherBound bound same
  exact absent (found ▸ listed)

theorem text_inj {left right : String} (leftAscii : isAscii left = true)
    (rightAscii : isAscii right = true) (same : (text left : List α) = text right) : left = right := by
  have lists : left.toList = right.toList := by
    unfold text isAscii at *
    generalize left.toList = letters at *
    generalize right.toList = others at *
    induction letters generalizing others with
    | nil => simpa using same.symm
    | cons letter letters ih =>
        cases others with
        | nil => simp at same
        | cons other others =>
            simp only [List.map_cons, List.cons.injEq, List.all_cons, Bool.and_eq_true,
              decide_eq_true_eq] at same leftAscii rightAscii
            rw [Alphabet.symbol_inj leftAscii.1 rightAscii.1 same.1,
              ih leftAscii.2 others rightAscii.2 same.2]
  exact String.toList_inj.mp lists

/-- Literals are equal over every alphabet or over none. -/
theorem text_eq_text {left right : String} (leftAscii : isAscii left = true)
    (rightAscii : isAscii right = true) : (text left : List α) = text right ↔ left = right :=
  ⟨text_inj leftAscii rightAscii, congrArg text⟩

end Symbols

section Escaping

variable {α : Type} [Alphabet α]

/-- A backslash is doubled, a line break becomes a backslash and the letter `n`. -/
def escape (value : List α) : List α :=
  value.flatMap fun letter =>
    if letter = backslashSymbol then [backslashSymbol, backslashSymbol]
    else if letter = newlineSymbol then [backslashSymbol, Alphabet.symbol 'n']
    else [letter]

/-- Reading an escaped field; the flag tells that the last letter was a backslash. -/
def unescapeFrom : Bool → List α → List α
  | _, [] => []
  | false, letter :: rest =>
      if letter = backslashSymbol then unescapeFrom true rest else letter :: unescapeFrom false rest
  | true, letter :: rest =>
      (if letter = Alphabet.symbol 'n' then newlineSymbol else letter) :: unescapeFrom false rest

def unescape (value : List α) : List α := unescapeFrom false value

theorem escape_cons (letter : α) (rest : List α) :
    escape (letter :: rest) =
      (if letter = backslashSymbol then [backslashSymbol, backslashSymbol]
       else if letter = newlineSymbol then [backslashSymbol, Alphabet.symbol 'n'] else [letter]) ++ escape rest := by
  simp [escape]

theorem unescape_escape (value : List α) : unescape (escape value) = value := by
  have notNewline : (newlineSymbol : α) ≠ backslashSymbol := symbol_ne (by decide) (by decide) (by decide)
  have notLetter : (backslashSymbol : α) ≠ Alphabet.symbol 'n' := symbol_ne (by decide) (by decide) (by decide)
  unfold unescape
  induction value with
  | nil => rfl
  | cons letter rest ih =>
      rw [escape_cons]
      by_cases slash : letter = backslashSymbol
      · subst slash
        simp [unescapeFrom, notLetter, ih]
      · by_cases break_ : letter = newlineSymbol
        · subst break_
          simp [unescapeFrom, notNewline, ih]
        · simp [unescapeFrom, slash, break_, ih]

theorem newline_not_mem_escape (value : List α) : newlineSymbol ∉ escape value := by
  have notSlash : (newlineSymbol : α) ≠ backslashSymbol := symbol_ne (by decide) (by decide) (by decide)
  have notLetter : (newlineSymbol : α) ≠ Alphabet.symbol 'n' := symbol_ne (by decide) (by decide) (by decide)
  intro member
  obtain ⟨letter, _, produced⟩ := List.mem_flatMap.mp member
  split at produced
  · simp [notSlash] at produced
  · split at produced
    · simp [notSlash, notLetter] at produced
    · rename_i other
      exact other (List.mem_singleton.mp produced).symm

theorem escape_inj {left right : List α} : escape left = escape right ↔ left = right := by
  refine ⟨fun same => ?_, fun same => congrArg escape same⟩
  rw [← unescape_escape left, same, unescape_escape]

end Escaping

section Cutting

variable {α : Type} [DecidableEq α]

/-- Cut at the first separator; `none` when there is none. -/
def cutAt (separator : α) : List α → Option (List α × List α)
  | [] => none
  | letter :: rest =>
      if letter = separator then some ([], rest)
      else (cutAt separator rest).map fun parts => (letter :: parts.1, parts.2)

/-- The pieces `std::getline` reads: each ends at a separator or at the end, and
nothing is read behind a separator at the end. -/
def pieces (separator : α) : List α → List (List α)
  | [] => []
  | letter :: rest =>
      if letter = separator then [] :: pieces separator rest
      else
        match pieces separator rest with
        | [] => [[letter]]
        | piece :: others => (letter :: piece) :: others

variable {separator : α}

theorem cutAt_append {front : List α} (absent : separator ∉ front) (back : List α) :
    cutAt separator (front ++ separator :: back) = some (front, back) := by
  induction front with
  | nil => simp [cutAt]
  | cons letter front ih =>
      simp only [List.mem_cons, not_or] at absent
      simp [cutAt, Ne.symm absent.1, ih absent.2]

theorem cutAt_eq_some {value front back : List α} (cut : cutAt separator value = some (front, back)) :
    value = front ++ separator :: back ∧ separator ∉ front := by
  induction value generalizing front with
  | nil => cases cut
  | cons letter rest ih =>
      by_cases found : letter = separator
      · simp only [cutAt, if_pos found, Option.some.injEq, Prod.mk.injEq] at cut
        obtain ⟨rfl, rfl⟩ := cut
        simp [found]
      · simp only [cutAt, if_neg found, Option.map_eq_some_iff, Prod.mk.injEq] at cut
        obtain ⟨⟨inner, outer⟩, deeper, rfl, rfl⟩ := cut
        obtain ⟨rfl, absent⟩ := ih deeper
        exact ⟨rfl, by simp [Ne.symm found, absent]⟩

theorem pieces_append {front : List α} (absent : separator ∉ front) (back : List α) :
    pieces separator (front ++ separator :: back) = front :: pieces separator back := by
  induction front with
  | nil => simp [pieces]
  | cons letter front ih =>
      simp only [List.mem_cons, not_or] at absent
      simp [pieces, Ne.symm absent.1, ih absent.2]

theorem pieces_of_not_mem {value : List α} (absent : separator ∉ value) (present : value ≠ []) :
    pieces separator value = [value] := by
  induction value with
  | nil => exact absurd rfl present
  | cons letter rest ih =>
      simp only [List.mem_cons, not_or] at absent
      cases rest with
      | nil => simp [pieces, Ne.symm absent.1]
      | cons next others =>
          rw [pieces, if_neg (Ne.symm absent.1), ih absent.2 (by simp)]

/-- Lines ended by a separator each are read back. -/
theorem pieces_terminated {lines : List (List α)} (absent : ∀ line ∈ lines, separator ∉ line) :
    pieces separator (lines.flatMap fun line => line ++ [separator]) = lines := by
  induction lines with
  | nil => rfl
  | cons line lines ih =>
      simp only [List.flatMap_cons, List.append_assoc, List.singleton_append]
      rw [pieces_append (absent line List.mem_cons_self),
        ih fun later member => absent later (List.mem_cons_of_mem _ member)]

/-- Lines with separators in between are read back unless they are empty. -/
theorem pieces_separated {lines : List (List α)}
    (absent : ∀ line ∈ lines, separator ∉ line ∧ line ≠ []) :
    pieces separator ([separator].intercalate lines) = lines := by
  induction lines with
  | nil => rfl
  | cons line lines ih =>
      obtain ⟨inside, named⟩ := absent line List.mem_cons_self
      have rest := ih fun later member => absent later (List.mem_cons_of_mem _ member)
      cases lines with
      | nil => simpa [List.intercalate] using pieces_of_not_mem inside named
      | cons next others =>
          rw [List.intercalate_cons_cons, List.append_assoc, List.singleton_append,
            pieces_append inside, rest]

/-- The part before the first separator decides where a text goes on. -/
theorem leads_separated_iff {front other : List α} (absent : separator ∉ front)
    (otherAbsent : separator ∉ other) (back : List α) :
    front ++ [separator] <+: other ++ separator :: back ↔ front = other := by
  constructor
  · intro leading
    obtain ⟨rest, same⟩ := leading
    have cuts : cutAt separator (front ++ separator :: rest) =
        cutAt separator (other ++ separator :: back) := by
      rw [← same]
      simp
    rw [cutAt_append absent, cutAt_append otherAbsent] at cuts
    exact (Prod.mk.inj (Option.some.inj cuts)).1
  · intro same
    subst other
    exact ⟨back, by simp⟩

theorem separated_inj {front other back behind : List α} (absent : separator ∉ front)
    (otherAbsent : separator ∉ other) :
    front ++ separator :: back = other ++ separator :: behind ↔ front = other ∧ back = behind := by
  constructor
  · intro same
    have cuts := congrArg (cutAt separator) same
    rw [cutAt_append absent, cutAt_append otherAbsent] at cuts
    exact Prod.mk.inj (Option.some.inj cuts)
  · intro same
    rw [same.1, same.2]

end Cutting

end ReqPack.Data
