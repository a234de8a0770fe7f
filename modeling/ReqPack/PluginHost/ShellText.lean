import ReqPack.PluginHost.ShellCommands
import Mathlib.Data.List.Chain

/-! # Shell command lists

The texts a shell reads as lists of simple commands: words of literal and quoted parts,
redirections, and separators.  The tokenizer of the policy reads such a text element by
element, though not always as the shell does.
-/

namespace ReqPack.PluginHost

open ReqPack.Data ReqPack.Data.Ascii

/-! ## Elements -/

/-- What stands between double quotes. -/
inductive DoubleItem
  | plain (c : UInt8)
  /-- a backslash and one of the bytes it quotes -/
  | escaped (c : UInt8)
  /-- a backslash that stays -/
  | kept (c : UInt8)
  /-- a backslash before a newline; both go -/
  | joined
deriving DecidableEq, Repr

inductive Fragment
  | literal (text : Bytes)
  | single (text : Bytes)
  | double (items : List DoubleItem)
deriving DecidableEq, Repr

abbrev ShellWord := List Fragment

inductive Separator
  | semicolon
  | pipe
  | andIf
  | orIf
  | background
  | newline
deriving DecidableEq, Repr

inductive RedirectOperator
  | output
  | append
  | clobber
  | both
deriving DecidableEq, Repr

inductive Element
  | blank (tab : Bool)
  | word (fragments : ShellWord)
  | separator (mark : Separator)
  | redirect (descriptor : Bytes) (operator : RedirectOperator) (blanks : List Bool) (target : Bytes)
deriving DecidableEq, Repr

section Texts

def blankText (tab : Bool) : UInt8 := if tab then 9 else space

def DoubleItem.text : DoubleItem → Bytes
  | .plain c => [c]
  | .escaped c => [backslash, c]
  | .kept c => [backslash, c]
  | .joined => [backslash, newline]

def Fragment.text : Fragment → Bytes
  | .literal text => text
  | .single text => singleQuote :: text ++ [singleQuote]
  | .double items => doubleQuote :: items.flatMap DoubleItem.text ++ [doubleQuote]

def Separator.text : Separator → Bytes
  | .semicolon => [PluginHost.semicolon]
  | .pipe => [PluginHost.pipe]
  | .andIf => [ampersand, ampersand]
  | .orIf => [PluginHost.pipe, PluginHost.pipe]
  | .background => [ampersand]
  | .newline => [Ascii.newline]

def RedirectOperator.text : RedirectOperator → Bytes
  | .output => [greater]
  | .append => [greater, greater]
  | .clobber => [greater, pipe]
  | .both => [ampersand, greater]

def Element.text : Element → Bytes
  | .blank tab => [blankText tab]
  | .word fragments => fragments.flatMap Fragment.text
  | .separator mark => mark.text
  | .redirect descriptor operator blanks target => descriptor ++ operator.text ++ blanks.map blankText ++ target

def commandText (elements : List Element) : Bytes := elements.flatMap Element.text

end Texts

section Legibility

/-- The bytes a shell does not take as they are. -/
def shellSpecials : Bytes := bytes "|&;<>()$`\\\"' \t\n*?[#~"

def isLiteralByte (c : UInt8) : Bool := !shellSpecials.contains c

/-- The bytes a backslash quotes between double quotes. -/
def isDoubleSpecial (c : UInt8) : Bool := c = doubleQuote || c = 36 || c = 96 || c = backslash

def DoubleItem.WellFormed : DoubleItem → Prop
  | .plain c => isDoubleSpecial c = false
  | .escaped c => isDoubleSpecial c = true
  | .kept c => isDoubleSpecial c = false ∧ c ≠ newline
  | .joined => True

/-- A target, or a part of a word that is not quoted. -/
def IsLiteral (text : Bytes) : Prop := text ≠ [] ∧ ∀ c ∈ text, isLiteralByte c = true

def Fragment.WellFormed : Fragment → Prop
  | .literal text => IsLiteral text
  | .single text => singleQuote ∉ text
  | .double items => ∀ item ∈ items, item.WellFormed

def Fragment.isLiteral : Fragment → Bool
  | .literal _ => true
  | _ => false

def Element.WellFormed : Element → Prop
  | .blank _ => True
  | .word fragments =>
      fragments ≠ [] ∧ (∀ fragment ∈ fragments, fragment.WellFormed) ∧
        fragments.IsChain fun first second => (first.isLiteral && second.isLiteral) = false
  | .separator _ => True
  | .redirect descriptor operator _ target =>
      descriptor.all isDigit = true ∧ (descriptor ≠ [] → operator = .output ∨ operator = .append) ∧ IsLiteral target

/-- A word that would be the descriptor of an operator right behind it. -/
def isDescriptor : ShellWord → Bool
  | [.literal text] => isAllDigits text
  | _ => false

/-- Without a blank between them the second element does not run into the first. -/
def Apart : Element → Element → Prop
  | .word _, .word _ => False
  | .word word, .redirect descriptor operator _ _ =>
      descriptor = [] ∧ (operator = .both ∨ isDescriptor word = false)
  | .redirect .., .word _ => False
  | .redirect _ _ _ target, .redirect descriptor operator _ _ =>
      descriptor = [] ∧ (operator = .both ∨ isAllDigits target = false)
  | .separator first, .separator second => first = .newline ∨ second = .newline
  | .separator first, .redirect descriptor operator _ _ =>
      (first = .background → descriptor ≠ []) ∧ (first = .pipe ∨ first = .semicolon → operator ≠ .both)
  | _, _ => True

/-- The shell reads the elements of the text as they are. -/
structure Legible (elements : List Element) : Prop where
  wellFormed : ∀ element ∈ elements, element.WellFormed
  apart : elements.IsChain Apart

theorem isLiteral_of_all {text : Bytes} (present : text.isEmpty = false) (all : text.all isLiteralByte = true) :
    IsLiteral text :=
  ⟨by simpa using present, List.all_eq_true.mp all⟩

theorem literal_word {text : Bytes} (literal : IsLiteral text) : (Element.word [.literal text]).WellFormed := by
  refine ⟨by simp, ?_, by simp⟩
  intro fragment member
  rw [List.mem_singleton.mp member]
  exact literal

end Legibility

/-! ## Readings -/

section Readings

/-- What the shell makes of the item. -/
def DoubleItem.value : DoubleItem → Bytes
  | .plain c => [c]
  | .escaped c => [c]
  | .kept c => [backslash, c]
  | .joined => []

def Fragment.value : Fragment → Bytes
  | .literal text => text
  | .single text => text
  | .double items => items.flatMap DoubleItem.value

/-- The word after the shell removed its quotes. -/
def wordValue (word : ShellWord) : Bytes := word.flatMap Fragment.value

/-- What the policy makes of the item: no backslash stays. -/
def DoubleItem.read : DoubleItem → Bytes
  | .plain c => [c]
  | .escaped c => [c]
  | .kept c => [c]
  | .joined => [newline]

/-- For the policy all white space ends a word. -/
def readLiteral (state : ShellTokens) (text : Bytes) : ShellTokens :=
  text.foldl (fun state c => if isSpace c then state.flush else state.push [c]) state

def Fragment.read (state : ShellTokens) : Fragment → ShellTokens
  | .literal text => readLiteral state text
  | .single text => state.push text
  | .double items => state.push (items.flatMap DoubleItem.read)

/-- A single `&` belongs to the word, and a newline only ends it. -/
def Separator.read (state : ShellTokens) : Separator → ShellTokens
  | .background => state.push [ampersand]
  | .newline => state.flush
  | mark => state.flush.addToken mark.text

/-- The `|` of `>|` is a token of its own. -/
def RedirectOperator.read (state : ShellTokens) : RedirectOperator → ShellTokens
  | .output => state.addRedirection [greater]
  | .append => state.addRedirection [greater, greater]
  | .clobber => (state.addRedirection [greater]).addToken [pipe]
  | .both => (state.push [ampersand]).addRedirection [greater]

def Element.read (state : ShellTokens) : Element → ShellTokens
  | .blank _ => state.flush
  | .word fragments => fragments.foldl Fragment.read state
  | .separator mark => mark.read state
  | .redirect descriptor operator _ target => readLiteral (operator.read (state.push descriptor)) target

/-- The words of the list as the policy reads them. -/
def readTokens (elements : List Element) : List Bytes := (elements.foldl Element.read {}).flush.tokens

end Readings

/-! ## The tokenizer reads the elements -/

namespace ShellTokens

variable {state : ShellTokens}

@[simp] theorem push_nil : state.push [] = state := by simp [push]

@[simp] theorem push_push (first second : Bytes) : (state.push first).push second = state.push (first ++ second) := by
  simp [push]

@[simp] theorem flush_current : state.flush.current = [] := by
  unfold flush
  split
  · rename_i empty
    exact List.isEmpty_iff.mp empty
  · rfl

theorem flush_of_current (empty : state.current = []) : state.flush = state := by simp [flush, empty]

@[simp] theorem addToken_current (token : Bytes) : (state.addToken token).current = state.current := rfl

@[simp] theorem addRedirection_current (operator : Bytes) : (state.addRedirection operator).current = [] := by
  unfold addRedirection
  split
  · rfl
  · simp

end ShellTokens

section Tokenizer

variable {state : ShellTokens} {rest : Bytes}

theorem literal_ne {c special : UInt8} (literal : isLiteralByte c = true) (isSpecial : special ∈ shellSpecials) :
    c ≠ special := by
  rintro rfl
  simp [isLiteralByte, isSpecial] at literal

theorem tokenize_single {text : Bytes} (absent : singleQuote ∉ text) :
    tokenizeFrom 0 .singleQuotes state (text ++ singleQuote :: rest) = tokenizeFrom 0 .plain (state.push text) rest := by
  induction text generalizing state with
  | nil => simp [tokenizeFrom]
  | cons c text ih =>
      simp only [List.mem_cons, not_or] at absent
      simp [tokenizeFrom, Ne.symm absent.1, ih absent.2]

theorem tokenize_item {item : DoubleItem} (wellFormed : item.WellFormed) :
    tokenizeFrom 0 .doubleQuotes state (item.text ++ rest) = tokenizeFrom 0 .doubleQuotes (state.push item.read) rest := by
  have backslash_ne : backslash ≠ doubleQuote := by decide
  cases item with
  | plain c =>
      simp only [DoubleItem.WellFormed, isDoubleSpecial, Bool.or_eq_false_iff, decide_eq_false_iff_not] at wellFormed
      simp [DoubleItem.text, DoubleItem.read, tokenizeFrom, wellFormed]
  | escaped c => simp [DoubleItem.text, DoubleItem.read, tokenizeFrom, backslash_ne]
  | kept c => simp [DoubleItem.text, DoubleItem.read, tokenizeFrom, backslash_ne]
  | joined => simp [DoubleItem.text, DoubleItem.read, tokenizeFrom, backslash_ne]

theorem tokenize_double {items : List DoubleItem} (wellFormed : ∀ item ∈ items, item.WellFormed) :
    tokenizeFrom 0 .doubleQuotes state (items.flatMap DoubleItem.text ++ doubleQuote :: rest) =
      tokenizeFrom 0 .plain (state.push (items.flatMap DoubleItem.read)) rest := by
  induction items generalizing state with
  | nil => simp [tokenizeFrom]
  | cons item items ih =>
      rw [List.flatMap_cons, List.append_assoc, tokenize_item (wellFormed item (by simp)),
        ih fun other member => wellFormed other (List.mem_cons_of_mem _ member)]
      simp

/-- A byte without a meaning of its own is kept, unless it is white space. -/
theorem tokenize_byte {c : UInt8} (literal : isLiteralByte c = true) :
    tokenizeFrom 0 .plain state (c :: rest) =
      tokenizeFrom 0 .plain (if isSpace c then state.flush else state.push [c]) rest := by
  have specials : backslash ∈ shellSpecials ∧ singleQuote ∈ shellSpecials ∧ doubleQuote ∈ shellSpecials ∧
      ampersand ∈ shellSpecials ∧ pipe ∈ shellSpecials ∧ semicolon ∈ shellSpecials ∧ greater ∈ shellSpecials := by
    decide +kernel
  have noBackslash : c ≠ backslash := literal_ne literal specials.1
  have noSingle : c ≠ singleQuote := literal_ne literal specials.2.1
  have noDouble : c ≠ doubleQuote := literal_ne literal specials.2.2.1
  have noAmpersand : c ≠ ampersand := literal_ne literal specials.2.2.2.1
  have noPipe : c ≠ pipe := literal_ne literal specials.2.2.2.2.1
  have noSemicolon : c ≠ semicolon := literal_ne literal specials.2.2.2.2.2.1
  have noGreater : c ≠ greater := literal_ne literal specials.2.2.2.2.2.2
  cases isSpaceByte : isSpace c <;>
    simp [tokenizeFrom, noBackslash, noSingle, noDouble, noAmpersand, noPipe, noSemicolon, noGreater, isSpaceByte]

theorem tokenize_literal {text : Bytes} (literal : ∀ c ∈ text, isLiteralByte c = true) :
    tokenizeFrom 0 .plain state (text ++ rest) = tokenizeFrom 0 .plain (readLiteral state text) rest := by
  induction text generalizing state with
  | nil => rfl
  | cons c text ih =>
      rw [List.cons_append, tokenize_byte (literal c (by simp)),
        ih fun other member => literal other (List.mem_cons_of_mem _ member)]
      rfl

theorem tokenize_fragment {fragment : Fragment} (wellFormed : fragment.WellFormed) :
    tokenizeFrom 0 .plain state (fragment.text ++ rest) = tokenizeFrom 0 .plain (fragment.read state) rest := by
  cases fragment with
  | literal text => exact tokenize_literal wellFormed.2
  | single text =>
      have opening : tokenizeFrom 0 .plain state ((Fragment.single text).text ++ rest) =
          tokenizeFrom 0 .singleQuotes state (text ++ singleQuote :: rest) := by
        simp [Fragment.text, tokenizeFrom, show singleQuote ≠ backslash by decide]
      rw [opening, tokenize_single wellFormed]
      rfl
  | double items =>
      have opening : tokenizeFrom 0 .plain state ((Fragment.double items).text ++ rest) =
          tokenizeFrom 0 .doubleQuotes state (items.flatMap DoubleItem.text ++ doubleQuote :: rest) := by
        simp [Fragment.text, tokenizeFrom, show doubleQuote ≠ backslash by decide,
          show doubleQuote ≠ singleQuote by decide]
      rw [opening, tokenize_double wellFormed]
      rfl

theorem tokenize_word {word : ShellWord} (wellFormed : ∀ fragment ∈ word, fragment.WellFormed) :
    tokenizeFrom 0 .plain state (word.flatMap Fragment.text ++ rest) =
      tokenizeFrom 0 .plain (word.foldl Fragment.read state) rest := by
  induction word generalizing state with
  | nil => rfl
  | cons fragment word ih =>
      rw [List.flatMap_cons, List.append_assoc, tokenize_fragment (wellFormed fragment (by simp)),
        ih fun other member => wellFormed other (List.mem_cons_of_mem _ member)]
      rfl

theorem tokenize_blank (tab : Bool) :
    tokenizeFrom 0 .plain state (blankText tab :: rest) = tokenizeFrom 0 .plain state.flush rest := by
  cases tab <;> simp +decide [tokenizeFrom]

theorem tokenize_blanks (blanks : List Bool) (empty : state.current = []) :
    tokenizeFrom 0 .plain state (blanks.map blankText ++ rest) = tokenizeFrom 0 .plain state rest := by
  induction blanks with
  | nil => rfl
  | cons tab blanks ih =>
      rw [List.map_cons, List.cons_append, tokenize_blank, ShellTokens.flush_of_current empty, ih]

theorem tokenize_separator (mark : Separator) (afterAmpersand : mark = .background → rest.head? ≠ some ampersand)
    (afterPipe : mark = .pipe → rest.head? ≠ some pipe) :
    tokenizeFrom 0 .plain state (mark.text ++ rest) = tokenizeFrom 0 .plain (mark.read state) rest := by
  cases mark with
  | semicolon => simp +decide [Separator.text, Separator.read, tokenizeFrom]
  | pipe => simp +decide [Separator.text, Separator.read, tokenizeFrom, afterPipe rfl]
  | andIf => simp +decide [Separator.text, Separator.read, tokenizeFrom]
  | orIf => simp +decide [Separator.text, Separator.read, tokenizeFrom]
  | background => simp +decide [Separator.text, Separator.read, tokenizeFrom, afterAmpersand rfl]
  | newline => simp +decide [Separator.text, Separator.read, tokenizeFrom]

/-- The bytes that an operator does not take into itself. -/
def EndsOperator (c : UInt8) : Prop := c ≠ greater ∧ c ≠ ampersand ∧ c ≠ pipe

theorem tokenize_operator (operator : RedirectOperator) {c : UInt8} (ends : EndsOperator c) :
    tokenizeFrom 0 .plain state (operator.text ++ c :: rest) =
      tokenizeFrom 0 .plain (operator.read state) (c :: rest) := by
  obtain ⟨noGreater, noAmpersand, noPipe⟩ := ends
  cases operator with
  | output =>
      simp +decide [RedirectOperator.text, RedirectOperator.read, redirectionOperator, tokenizeFrom, noGreater, noAmpersand]
  | append =>
      simp +decide [RedirectOperator.text, RedirectOperator.read, redirectionOperator, tokenizeFrom, noAmpersand]
  | clobber =>
      simp +decide [RedirectOperator.text, RedirectOperator.read, redirectionOperator, tokenizeFrom, noPipe,
        ShellTokens.flush_of_current]
  | both =>
      simp +decide [RedirectOperator.text, RedirectOperator.read, redirectionOperator, tokenizeFrom, noGreater, noAmpersand]

theorem digit_literal {c : UInt8} (digit : isDigit c = true) : isLiteralByte c = true := by
  have noneSpecial : shellSpecials.all (fun special => !isDigit special) = true := by decide +kernel
  rw [isLiteralByte, Bool.not_eq_true', ← Bool.not_eq_true, List.contains_iff_mem]
  intro special
  simpa [digit] using List.all_eq_true.mp noneSpecial c special

theorem digit_not_space {c : UInt8} (digit : isDigit c = true) : isSpace c = false := by
  simp only [isDigit, Bool.and_eq_true, decide_eq_true_eq] at digit
  simp only [isSpace, space, Bool.or_eq_false_iff, beq_eq_false_iff_ne, Bool.and_eq_false_iff, decide_eq_false_iff_not]
  constructor
  · rintro rfl
    exact absurd digit.1 (by decide)
  · right
    intro below
    exact absurd (UInt8.le_trans digit.1 below) (by decide)

theorem readLiteral_of_noSpace {text : Bytes} (noSpace : ∀ c ∈ text, isSpace c = false) :
    readLiteral state text = state.push text := by
  induction text generalizing state with
  | nil => simp [readLiteral]
  | cons c text ih =>
      have step : readLiteral state (c :: text) = readLiteral (state.push [c]) text := by
        simp [readLiteral, noSpace c (by simp)]
      rw [step, ih fun other member => noSpace other (List.mem_cons_of_mem _ member)]
      simp

theorem tokenize_digits {digits : Bytes} (all : digits.all isDigit = true) :
    tokenizeFrom 0 .plain state (digits ++ rest) = tokenizeFrom 0 .plain (state.push digits) rest := by
  rw [List.all_eq_true] at all
  rw [tokenize_literal fun c member => digit_literal (all c member),
    readLiteral_of_noSpace fun c member => digit_not_space (all c member)]

/-- A target stops the operator before it, with blanks or without. -/
theorem blanks_target_cons (blanks : List Bool) {target : Bytes} (literal : IsLiteral target) :
    ∃ c behind, blanks.map blankText ++ target = c :: behind ∧ EndsOperator c := by
  cases blanks with
  | nil =>
      obtain ⟨present, literal⟩ := literal
      cases target with
      | nil => exact absurd rfl present
      | cons c behind =>
          have first := literal c (by simp)
          refine ⟨c, behind, rfl, ?_, ?_, ?_⟩ <;> exact literal_ne first (by decide +kernel)
  | cons tab blanks =>
      refine ⟨blankText tab, _, rfl, ?_, ?_, ?_⟩ <;> cases tab <;> decide

@[simp] theorem operator_read_current (operator : RedirectOperator) : (operator.read state).current = [] := by
  cases operator <;> simp [RedirectOperator.read]

theorem tokenize_redirect {descriptor : Bytes} {operator : RedirectOperator} {blanks : List Bool} {target : Bytes}
    (wellFormed : (Element.redirect descriptor operator blanks target).WellFormed) :
    tokenizeFrom 0 .plain state ((Element.redirect descriptor operator blanks target).text ++ rest) =
      tokenizeFrom 0 .plain ((Element.redirect descriptor operator blanks target).read state) rest := by
  obtain ⟨digits, _, literal⟩ := wellFormed
  obtain ⟨c, behind, starts, ends⟩ := blanks_target_cons blanks literal
  calc tokenizeFrom 0 .plain state (descriptor ++ operator.text ++ blanks.map blankText ++ target ++ rest)
      = tokenizeFrom 0 .plain (state.push descriptor) (operator.text ++ c :: (behind ++ rest)) := by
        rw [← tokenize_digits digits, ← List.cons_append, ← starts]
        simp
    _ = tokenizeFrom 0 .plain (operator.read (state.push descriptor)) (blanks.map blankText ++ (target ++ rest)) := by
        rw [tokenize_operator operator ends, ← List.cons_append, ← starts, List.append_assoc]
    _ = tokenizeFrom 0 .plain (readLiteral (operator.read (state.push descriptor)) target) rest := by
        rw [tokenize_blanks blanks (operator_read_current operator), tokenize_literal literal.2]

theorem tokenize_element {element : Element} (wellFormed : element.WellFormed)
    (afterAmpersand : element = .separator .background → rest.head? ≠ some ampersand)
    (afterPipe : element = .separator .pipe → rest.head? ≠ some pipe) :
    tokenizeFrom 0 .plain state (element.text ++ rest) = tokenizeFrom 0 .plain (element.read state) rest := by
  cases element with
  | blank tab => exact tokenize_blank tab
  | word fragments => exact tokenize_word wellFormed.2.1
  | separator mark =>
      refine tokenize_separator mark (fun isBackground => ?_) (fun isPipe => ?_)
      · exact afterAmpersand (by rw [isBackground])
      · exact afterPipe (by rw [isPipe])
  | redirect descriptor operator blanks target => exact tokenize_redirect wellFormed

end Tokenizer

section Lists

theorem word_text_cons {fragments : ShellWord} (wellFormed : (Element.word fragments).WellFormed) :
    ∃ c behind, (Element.word fragments).text = c :: behind ∧ c ≠ ampersand ∧ c ≠ pipe := by
  obtain ⟨present, fragmentsWellFormed, _⟩ := wellFormed
  cases fragments with
  | nil => exact absurd rfl present
  | cons fragment others =>
      have first := fragmentsWellFormed fragment (by simp)
      cases fragment with
      | literal text =>
          cases text with
          | nil => exact absurd rfl first.1
          | cons c behind =>
              have literal := first.2 c (by simp)
              exact ⟨c, _, rfl, literal_ne literal (by decide +kernel), literal_ne literal (by decide +kernel)⟩
      | single text => exact ⟨singleQuote, _, rfl, by decide, by decide⟩
      | double items => exact ⟨doubleQuote, _, rfl, by decide, by decide⟩

theorem digit_ne {c : UInt8} (digit : isDigit c = true) : c ≠ ampersand ∧ c ≠ pipe :=
  ⟨literal_ne (digit_literal digit) (by decide +kernel), literal_ne (digit_literal digit) (by decide +kernel)⟩

/-- Behind a single `&` no second one follows, and no `|` behind a single `|`. -/
theorem apart_head {mark : Separator} {element : Element} {rest : Bytes} (wellFormed : element.WellFormed)
    (apart : Apart (.separator mark) element) :
    (mark = .background → (element.text ++ rest).head? ≠ some ampersand) ∧
      (mark = .pipe → (element.text ++ rest).head? ≠ some pipe) := by
  cases element with
  | blank tab =>
      constructor <;> rintro rfl <;> cases tab <;> simp +decide [Element.text]
  | word fragments =>
      obtain ⟨c, behind, starts, noAmpersand, noPipe⟩ := word_text_cons wellFormed
      simp [starts, noAmpersand, noPipe]
  | separator other =>
      rcases apart with rfl | rfl
      · simp
      · constructor <;> rintro rfl <;> simp +decide [Element.text, Separator.text]
  | redirect descriptor operator blanks target =>
      cases descriptor with
      | nil =>
          constructor
          · rintro rfl
            exact absurd rfl (apart.1 rfl)
          · rintro rfl
            have notBoth := apart.2 (Or.inl rfl)
            cases operator with
            | both => exact absurd rfl notBoth
            | output => simp +decide [Element.text, RedirectOperator.text]
            | append => simp +decide [Element.text, RedirectOperator.text]
            | clobber => simp +decide [Element.text, RedirectOperator.text]
      | cons digit digits =>
          have isDigitByte : isDigit digit = true := List.all_eq_true.mp wellFormed.1 digit (by simp)
          obtain ⟨noAmpersand, noPipe⟩ := digit_ne isDigitByte
          simp [Element.text, noAmpersand, noPipe]

theorem tokenize_elements {elements : List Element} {state : ShellTokens} (legible : Legible elements) :
    tokenizeFrom 0 .plain state (commandText elements) = (elements.foldl Element.read state).flush := by
  induction elements generalizing state with
  | nil => simp [commandText]
  | cons element elements ih =>
      obtain ⟨wellFormed, apart⟩ := legible
      have tail : Legible elements :=
        ⟨fun other member => wellFormed other (List.mem_cons_of_mem _ member), apart.tail⟩
      have follows : (element = .separator .background → (commandText elements).head? ≠ some ampersand) ∧
          (element = .separator .pipe → (commandText elements).head? ≠ some pipe) := by
        cases elements with
        | nil => simp [commandText]
        | cons next others =>
            have nextWellFormed := wellFormed next (by simp)
            have nextApart := (List.isChain_cons_cons.mp apart).1
            constructor
            · rintro rfl
              exact (apart_head nextWellFormed nextApart).1 rfl
            · rintro rfl
              exact (apart_head nextWellFormed nextApart).2 rfl
      calc tokenizeFrom 0 .plain state (element.text ++ commandText elements)
          = tokenizeFrom 0 .plain (element.read state) (commandText elements) :=
            tokenize_element (wellFormed element (by simp)) follows.1 follows.2
        _ = ((element :: elements).foldl Element.read state).flush := ih tail

theorem tokenizeShellCommand_text {elements : List Element} (legible : Legible elements) :
    tokenizeShellCommand (commandText elements) = readTokens elements := by
  rw [tokenizeShellCommand, tokenize_elements legible, readTokens]

end Lists

end ReqPack.PluginHost
