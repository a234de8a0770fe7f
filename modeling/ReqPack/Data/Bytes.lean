import Mathlib.Data.List.DropRight
import Mathlib.Data.UInt

/-! # Byte strings

Strings as they stand on a socket or in an argument vector, and the character classes
of the C locale.
-/

namespace ReqPack.Data

abbrev Bytes := List UInt8

/-- A literal of the source. -/
def bytes (literal : String) : Bytes := literal.toList.map Char.toUInt8

namespace Ascii

def space : UInt8 := 32

def newline : UInt8 := 10

def carriageReturn : UInt8 := 13

def doubleQuote : UInt8 := 34

def singleQuote : UInt8 := 39

def backslash : UInt8 := 92

def slash : UInt8 := 47

/-- `std::isspace` in the C locale. -/
def isSpace (c : UInt8) : Bool := c == space || (9 ≤ c && c ≤ 13)

/-- `std::isalnum` in the C locale. -/
def isAlnum (c : UInt8) : Bool := (48 ≤ c && c ≤ 57) || (65 ≤ c && c ≤ 90) || (97 ≤ c && c ≤ 122)

/-- The blanks `trim_copy` cuts off and `join_arguments` looks for. -/
def isBlank (c : UInt8) : Bool := c == space || c == 9 || c == carriageReturn || c == newline

def isDigit (c : UInt8) : Bool := 48 ≤ c && c ≤ 57

/-- `std::tolower`. -/
def toLower (c : UInt8) : UInt8 := if 65 ≤ c && c ≤ 90 then c + 32 else c

def toLowerCopy (value : Bytes) : Bytes := value.map toLower

def trimCopy (value : Bytes) : Bytes := (value.dropWhile isBlank).rdropWhile isBlank

/-- The last component of a path. -/
def pathFilename (path : Bytes) : Bytes := path.rtakeWhile (· != slash)

/-- `/` of `std::filesystem::path`; an absolute second path replaces the first. -/
def joinPath (base name : Bytes) : Bytes :=
  if name.head? == some slash then name
  else if base.isEmpty || base.getLast? == some slash then base ++ name
  else base ++ slash :: name

def decimalValue (digits : Bytes) : Nat :=
  digits.foldl (fun value digit => 10 * value + (digit.toNat - 48)) 0

/-- `std::to_string` of an unsigned number. -/
def toDecimal (value : Nat) : Bytes := (Nat.toDigits 10 value).map Char.toUInt8

/-- What `std::stoul` reads and what it leaves: blanks and a sign are skipped, reading
stops behind the digits, and a number that does not fit into 64 bits is an error; a minus
sign negates modulo `2 ^ 64`. -/
def readUnsigned (value : Bytes) : Option (Nat × Bytes) :=
  let trimmed := value.dropWhile isSpace
  let negative := trimmed.head? == some 45
  let unsigned := if negative || trimmed.head? == some 43 then trimmed.tail else trimmed
  let digits := unsigned.takeWhile isDigit
  if digits.isEmpty || 2 ^ 64 ≤ decimalValue digits then none
  else
    some (if negative then (2 ^ 64 - decimalValue digits) % 2 ^ 64 else decimalValue digits,
      unsigned.dropWhile isDigit)

def stoull (value : Bytes) : Option Nat := (readUnsigned value).map Prod.fst

section Trimming

variable {α : Type} {blank : α → Bool}

/-- Nothing is cut off where nothing blank stands at the ends. -/
theorem trim_of_ends {value : List α} (first : ∀ c, value.head? = some c → blank c = false)
    (last : ∀ c, value.getLast? = some c → blank c = false) :
    (value.dropWhile blank).rdropWhile blank = value := by
  have front : value.dropWhile blank = value := by
    cases value with
    | nil => rfl
    | cons c rest => rw [List.dropWhile_cons_of_neg (by simp [first c rfl])]
  rw [front, List.rdropWhile_eq_self_iff]
  intro present
  simp [last _ (List.getLast?_eq_some_getLast present)]

theorem trim_idem (value : List α) :
    (((value.dropWhile blank).rdropWhile blank).dropWhile blank).rdropWhile blank =
      (value.dropWhile blank).rdropWhile blank := by
  apply trim_of_ends
  · intro c head
    have leads : (value.dropWhile blank).rdropWhile blank <+: value.dropWhile blank := List.rdropWhile_prefix blank _
    obtain ⟨rest, whole⟩ := leads
    have front : (value.dropWhile blank).head? = some c := by
      rw [← whole, List.head?_append, head, Option.some_or]
    have kept := List.head?_dropWhile_not blank value
    rwa [front] at kept
  · intro c final
    have present : (value.dropWhile blank).rdropWhile blank ≠ [] := by
      intro empty
      simp [empty] at final
    have kept := List.rdropWhile_last_not blank (value.dropWhile blank) present
    rw [List.getLast?_eq_some_getLast present, Option.some.injEq] at final
    rw [← final]
    simpa using kept

end Trimming

theorem trimCopy_of_ends {value : Bytes} (first : ∀ c, value.head? = some c → isBlank c = false)
    (last : ∀ c, value.getLast? = some c → isBlank c = false) : trimCopy value = value :=
  trim_of_ends first last

theorem trimCopy_idem (value : Bytes) : trimCopy (trimCopy value) = trimCopy value :=
  trim_idem value

theorem toLower_cases (c : UInt8) :
    toLower c = c ∨ (65 ≤ c.toNat ∧ c.toNat ≤ 90 ∧ (toLower c).toNat = c.toNat + 32) := by
  by_cases upper : (65 ≤ c && c ≤ 90) = true
  · right
    rw [toLower, if_pos upper, UInt8.toNat_add]
    simp only [Bool.and_eq_true, decide_eq_true_eq, UInt8.le_iff_toNat_le] at upper
    have low : 65 ≤ c.toNat := upper.1
    have high : c.toNat ≤ 90 := upper.2
    exact ⟨low, high, Nat.mod_eq_of_lt (by change c.toNat + 32 < 256; omega)⟩
  · exact Or.inl (by rw [toLower, if_neg upper])

theorem toLower_idem (c : UInt8) : toLower (toLower c) = toLower c := by
  rcases toLower_cases c with kept | ⟨low, _, lowered⟩
  · rw [kept, kept]
  · rcases toLower_cases (toLower c) with kept | ⟨_, high, _⟩
    · exact kept
    · omega

theorem isSpace_of_large {c : UInt8} (large : 33 ≤ c.toNat) : isSpace c = false := by
  simp only [isSpace, Bool.or_eq_false_iff, Bool.and_eq_false_iff, beq_eq_false_iff_ne, decide_eq_false_iff_not,
    UInt8.le_iff_toNat_le]
  refine ⟨?_, Or.inr ?_⟩
  · rintro rfl
    exact absurd large (by decide)
  · change ¬ c.toNat ≤ 13
    omega

theorem isSpace_toLower (c : UInt8) : isSpace (toLower c) = isSpace c := by
  rcases toLower_cases c with kept | ⟨low, _, lowered⟩
  · rw [kept]
  · rw [isSpace_of_large (by omega), isSpace_of_large (by omega)]

theorem toLowerCopy_idem (value : Bytes) : toLowerCopy (toLowerCopy value) = toLowerCopy value := by
  simp only [toLowerCopy, List.map_map]
  exact List.map_congr_left fun c _ => toLower_idem c

theorem digit_toNat {digit : Char} (range : digit.isDigit = true) :
    48 ≤ digit.toNat ∧ digit.toNat ≤ 57 ∧ digit.toUInt8.toNat = digit.toNat := by
  simp only [Char.isDigit, Bool.and_eq_true, decide_eq_true_eq, ge_iff_le, UInt32.le_iff_toNat_le] at range
  have low : 48 ≤ digit.toNat := range.1
  have high : digit.toNat ≤ 57 := range.2
  refine ⟨low, high, ?_⟩
  change digit.toNat % 256 = digit.toNat
  exact Nat.mod_eq_of_lt (by omega)

theorem isDigit_not_isSpace {c : UInt8} (digit : isDigit c = true) : isSpace c = false := by
  simp only [isDigit, Bool.and_eq_true, decide_eq_true_eq, UInt8.le_iff_toNat_le] at digit
  have low : 48 ≤ c.toNat := digit.1
  exact isSpace_of_large (by omega)

theorem isDigit_of_mem_toDecimal {value : Nat} {c : UInt8} (member : c ∈ toDecimal value) :
    isDigit c = true := by
  obtain ⟨digit, listed, rfl⟩ := List.mem_map.mp member
  obtain ⟨low, high, same⟩ := digit_toNat (Nat.isDigit_of_mem_toDigits (by decide) (by decide) listed)
  simp only [isDigit, Bool.and_eq_true, decide_eq_true_eq, UInt8.le_iff_toNat_le, same]
  exact ⟨low, high⟩

theorem toDecimal_ne_nil (value : Nat) : toDecimal value ≠ [] := by
  simp [toDecimal, Nat.toDigits_ne_nil]

theorem decimalValue_toDecimal (value : Nat) : decimalValue (toDecimal value) = value := by
  have folds : ∀ digits : List Char, (∀ digit ∈ digits, digit.isDigit = true) → ∀ start : Nat,
      (digits.map Char.toUInt8).foldl (fun value digit => 10 * value + (digit.toNat - 48)) start =
        Nat.ofDigitChars 10 digits start := by
    intro digits range
    induction digits with
    | nil => simp
    | cons digit digits ih =>
        intro start
        obtain ⟨_, _, same⟩ := digit_toNat (range digit List.mem_cons_self)
        rw [List.map_cons, List.foldl_cons, ih (fun later member => range later (List.mem_cons_of_mem _ member)),
          Nat.ofDigitChars_cons, same]
        rfl
  rw [decimalValue, toDecimal, folds _ (fun _ => Nat.isDigit_of_mem_toDigits (by decide) (by decide)),
    Nat.ofDigitChars_ten_toDigits]

/-- A number in decimal is read back when it fits. -/
theorem stoull_toDecimal {value : Nat} (fits : value < 2 ^ 64) : stoull (toDecimal value) = some value := by
  obtain ⟨first, rest, shape⟩ := List.exists_cons_of_ne_nil (toDecimal_ne_nil value)
  have digits : ∀ c ∈ toDecimal value, isDigit c = true := fun _ => isDigit_of_mem_toDecimal
  have leading := digits first (by simp [shape])
  have ordinary : isSpace first = false ∧ first ≠ 45 ∧ first ≠ 43 := by
    refine ⟨isDigit_not_isSpace leading, ?_, ?_⟩
    · rintro rfl
      exact absurd leading (by decide)
    · rintro rfl
      exact absurd leading (by decide)
  have blanks : (toDecimal value).dropWhile isSpace = toDecimal value := by
    rw [shape, List.dropWhile_cons_of_neg (by simp [ordinary.1])]
  have taken : (toDecimal value).takeWhile isDigit = toDecimal value := List.takeWhile_eq_self_iff.mpr digits
  have head : (toDecimal value).head? = some first := by rw [shape, List.head?_cons]
  simp only [stoull, readUnsigned, blanks, head]
  simp [ordinary.2.1, ordinary.2.2, taken, decimalValue_toDecimal, toDecimal_ne_nil]
  omega

end Ascii

end ReqPack.Data
