import ReqPack.Data.Lists
import ReqPack.PluginHost.ShellReading

/-! # Plain command lists

Where every word is one token and every separator a boundary, the policy sees the commands
that the shell sees.
-/

namespace ReqPack.PluginHost

open ReqPack.Data ReqPack.Data.Ascii

section Tokens

/-- The policy reads the part as the shell does. -/
def Fragment.isPlain : Fragment → Bool
  | .literal text => !text.any isSpace
  | .single _ => true
  | .double items => items.all fun item => item.read = item.value

/-- The word is one token and stands for nothing else. -/
structure PlainWord (word : ShellWord) : Prop where
  fragments : ∀ fragment ∈ word, fragment.isPlain = true
  present : wordValue word ≠ []
  noRedirection : isFileRedirectionOperator (wordValue word) = false
  noBoundary : isCommandBoundaryToken (wordValue word) = false
  /-- an assigned value holds no slash -/
  assignment : isAssignmentWord word = true → slash ∉ wordValue word
  /-- digits are not quoted -/
  digits : isAllDigits (wordValue word) = true → isDescriptor word = true

def PlainElement : Element → Prop
  | .blank _ => True
  | .word fragments => PlainWord fragments
  | .separator mark => mark ≠ .background ∧ mark ≠ .newline
  | .redirect _ operator _ target =>
      (operator = .output ∨ operator = .append) ∧ ∀ c ∈ target, isSpace c = false

/-- The tokens a plain element adds. -/
def Element.tokens : Element → List Bytes
  | .blank _ => []
  | .word fragments => [wordValue fragments]
  | .separator mark => [mark.text]
  | .redirect descriptor operator _ target => [descriptor ++ operator.text, target]

/-- What the tokenizer has not yet ended behind a plain element. -/
def Element.pending : Element → Bytes
  | .word fragments => wordValue fragments
  | .redirect _ _ _ target => target
  | _ => []

/-- The element begins a token of its own in the state. -/
def StartsIn (state : ShellTokens) : Element → Prop
  | .word _ => state.current = []
  | .redirect descriptor .. => state.current = [] ∨ (descriptor = [] ∧ isAllDigits state.current = false)
  | _ => True

theorem plain_literal {text : Bytes} (noSpace : text.any isSpace = false) (present : text.isEmpty = false)
    (noRedirection : isFileRedirectionOperator text = false) (noBoundary : isCommandBoundaryToken text = false)
    (noSlash : isAssignmentWord [.literal text] = true → slash ∉ text) : PlainElement (.word [.literal text]) := by
  have value : wordValue [.literal text] = text := by simp [wordValue, Fragment.value]
  refine ⟨?_, ?_, ?_, ?_, ?_, ?_⟩
  · intro fragment member
    rw [List.mem_singleton.mp member]
    simp only [Fragment.isPlain, noSpace, Bool.not_false]
  · rw [value]
    simpa using present
  · rwa [value]
  · rwa [value]
  · rwa [value]
  · rw [value]
    exact id

variable {state : ShellTokens}

theorem read_fragment_plain {fragment : Fragment} (plain : fragment.isPlain = true) :
    fragment.read state = state.push fragment.value := by
  cases fragment with
  | literal text =>
      apply readLiteral_of_noSpace
      simpa [Fragment.isPlain] using plain
  | single text => rfl
  | double items =>
      simp only [Fragment.isPlain, List.all_eq_true, decide_eq_true_eq] at plain
      have same : items.flatMap DoubleItem.read = items.flatMap DoubleItem.value := List.flatMap_congr plain
      rw [Fragment.read, same]
      rfl

theorem read_word_plain {word : ShellWord} (plain : ∀ fragment ∈ word, fragment.isPlain = true) :
    word.foldl Fragment.read state = state.push (wordValue word) := by
  induction word generalizing state with
  | nil => simp [wordValue]
  | cons fragment word ih =>
      rw [List.foldl_cons, read_fragment_plain (plain fragment (by simp)),
        ih fun other member => plain other (List.mem_cons_of_mem _ member)]
      simp [wordValue]

theorem flush_push_tokens {text : Bytes} (empty : state.current = []) (present : text ≠ []) :
    (state.push text).flush.tokens = state.flush.tokens ++ [text] := by
  have added : (state.push text).current = text := by simp [ShellTokens.push, empty]
  rw [ShellTokens.flush_of_current empty, ShellTokens.flush, added, if_neg (by simpa using present)]
  rfl

theorem addRedirection_tokens {descriptor operator : Bytes} (digits : descriptor.all isDigit = true)
    (starts : state.current = [] ∨ (descriptor = [] ∧ isAllDigits state.current = false)) :
    ((state.push descriptor).addRedirection operator).tokens = state.flush.tokens ++ [descriptor ++ operator] := by
  rcases starts with empty | ⟨rfl, noDigits⟩
  · have added : (state.push descriptor).current = descriptor := by simp [ShellTokens.push, empty]
    rw [ShellTokens.flush_of_current empty, ShellTokens.addRedirection, added]
    cases present : isAllDigits descriptor with
    | true => rfl
    | false =>
        have noDescriptor : descriptor = [] := by simpa [isAllDigits, digits] using present
        subst noDescriptor
        simp [ShellTokens.flush_of_current empty, ShellTokens.addToken]
  · rw [ShellTokens.push_nil, ShellTokens.addRedirection, noDigits]
    rfl

theorem read_redirect_plain {operator : RedirectOperator} (plain : operator = .output ∨ operator = .append) :
    operator.read state = state.addRedirection operator.text := by
  rcases plain with rfl | rfl <;> rfl

theorem read_separator_plain {mark : Separator} (plain : mark ≠ .background ∧ mark ≠ .newline) :
    mark.read state = state.flush.addToken mark.text := by
  cases mark with
  | background => exact absurd rfl plain.1
  | newline => exact absurd rfl plain.2
  | _ => rfl

/-- A plain element adds its tokens, and leaves the last one open if more could join it. -/
theorem read_plain {element : Element} (wellFormed : element.WellFormed) (plain : PlainElement element)
    (starts : StartsIn state element) :
    (element.read state).flush.tokens = state.flush.tokens ++ element.tokens ∧
      (element.read state).current = element.pending := by
  cases element with
  | blank tab => simp [Element.read, Element.tokens, Element.pending, ShellTokens.flush_of_current]
  | word fragments =>
      have empty : state.current = [] := starts
      have pushed : (Element.word fragments).read state = state.push (wordValue fragments) :=
        read_word_plain plain.fragments
      rw [pushed]
      exact ⟨flush_push_tokens empty plain.present, by simp [ShellTokens.push, empty, Element.pending]⟩
  | separator mark =>
      have added : (Element.separator mark).read state = state.flush.addToken mark.text := read_separator_plain plain
      rw [added]
      constructor
      · rw [ShellTokens.flush_of_current (by simp)]
        rfl
      · simp [Element.pending]
  | redirect descriptor operator blanks target =>
      obtain ⟨digits, _, literal⟩ := wellFormed
      have read : (Element.redirect descriptor operator blanks target).read state =
          ((state.push descriptor).addRedirection operator.text).push target := by
        rw [Element.read, read_redirect_plain plain.1, readLiteral_of_noSpace plain.2]
      rw [read, flush_push_tokens (by simp) literal.1]
      constructor
      · rw [ShellTokens.flush_of_current (by simp), addRedirection_tokens digits starts]
        simp [Element.tokens]
      · simp [ShellTokens.push, Element.pending]

theorem startsIn_next {element next : Element} (plain : PlainElement element) (apart : Apart element next)
    (notBoth : PlainElement next) (pending : state.current = element.pending) : StartsIn state next := by
  cases next with
  | blank tab => trivial
  | separator mark => trivial
  | word fragments =>
      cases element with
      | blank tab => exact pending
      | word before => exact absurd apart id
      | separator mark => exact pending
      | redirect descriptor operator blanks target => exact absurd apart id
  | redirect descriptor operator blanks target =>
      have single : operator ≠ .both := by rcases notBoth.1 with rfl | rfl <;> decide
      cases element with
      | blank tab => exact Or.inl pending
      | separator mark => exact Or.inl pending
      | word before =>
          obtain ⟨noDescriptor, distinct⟩ := apart
          refine Or.inr ⟨noDescriptor, ?_⟩
          rw [pending, Element.pending, ← Bool.not_eq_true]
          intro digits
          have clash := plain.digits digits
          rcases distinct with both | apart
          · exact single both
          · simp [clash] at apart
      | redirect before beforeOperator beforeBlanks beforeTarget =>
          obtain ⟨noDescriptor, distinct⟩ := apart
          refine Or.inr ⟨noDescriptor, ?_⟩
          rw [pending]
          exact distinct.resolve_left single

theorem read_list_plain {elements : List Element} (legible : Legible elements)
    (plain : ∀ element ∈ elements, PlainElement element)
    (starts : ∀ element ∈ elements.head?, StartsIn state element) :
    (elements.foldl Element.read state).flush.tokens = state.flush.tokens ++ elements.flatMap Element.tokens := by
  induction elements generalizing state with
  | nil => simp
  | cons element elements ih =>
      obtain ⟨wellFormed, apart⟩ := legible
      obtain ⟨added, pending⟩ := read_plain (wellFormed element (by simp)) (plain element (by simp))
        (starts element (by simp))
      rw [List.foldl_cons, ih ⟨fun other member => wellFormed other (List.mem_cons_of_mem _ member), apart.tail⟩
        fun other member => plain other (List.mem_cons_of_mem _ member)]
      · rw [added, List.flatMap_cons, List.append_assoc]
      · cases elements with
        | nil => simp
        | cons next others =>
            have nextStarts := startsIn_next (plain element (by simp)) (List.isChain_cons_cons.mp apart).1
              (plain next (by simp)) pending
            simpa using nextStarts

theorem readTokens_plain {elements : List Element} (legible : Legible elements)
    (plain : ∀ element ∈ elements, PlainElement element) :
    readTokens elements = elements.flatMap Element.tokens := by
  have starts : ∀ element ∈ elements.head?, StartsIn {} element := by
    intro element _
    cases element with
    | redirect descriptor operator blanks target => exact Or.inl rfl
    | word fragments => rfl
    | _ => trivial
  rw [readTokens, read_list_plain legible plain starts]
  rfl

end Tokens

section Commands

theorem target_no_boundary {target : Bytes} (literal : IsLiteral target) : isCommandBoundaryToken target = false := by
  rw [Bool.eq_false_iff]
  intro boundary
  have noAmpersand : ampersand ∉ target :=
    fun member => literal_ne (literal.2 _ member) (by decide +kernel) rfl
  have noPipe : pipe ∉ target := fun member => literal_ne (literal.2 _ member) (by decide +kernel) rfl
  have noSemicolon : semicolon ∉ target :=
    fun member => literal_ne (literal.2 _ member) (by decide +kernel) rfl
  simp only [isCommandBoundaryToken, Bool.or_eq_true, decide_eq_true_eq] at boundary
  rcases boundary with ((rfl | rfl) | rfl) | rfl
  · exact noAmpersand (by decide +kernel)
  · exact noPipe (by decide +kernel)
  · exact noSemicolon (by decide +kernel)
  · exact noPipe (by decide +kernel)

theorem redirection_no_boundary {token : Bytes} (operator : isFileRedirectionOperator token = true) :
    isCommandBoundaryToken token = false := by
  rw [Bool.eq_false_iff]
  intro boundary
  simp only [isCommandBoundaryToken, Bool.or_eq_true, decide_eq_true_eq] at boundary
  rcases boundary with ((rfl | rfl) | rfl) | rfl <;> exact absurd operator (by decide +kernel)

theorem operator_token {descriptor : Bytes} {operator : RedirectOperator} (digits : descriptor.all isDigit = true)
    (plain : operator = .output ∨ operator = .append) : isFileRedirectionOperator (descriptor ++ operator.text) = true := by
  have noAmpersand : ampersand ∉ descriptor :=
    fun member => (digit_ne (List.all_eq_true.mp digits _ member)).1 rfl
  have different : ampersand ≠ greater := by decide
  rcases plain with rfl | rfl <;> simp [isFileRedirectionOperator, RedirectOperator.text, noAmpersand, different]

theorem separator_token {mark : Separator} (plain : mark ≠ .background ∧ mark ≠ .newline) :
    isCommandBoundaryToken mark.text = true := by
  cases mark with
  | background => exact absurd rfl plain.1
  | newline => exact absurd rfl plain.2
  | _ => decide +kernel

/-- The segments of a plain list are its simple commands. -/
theorem segments_plain {elements : List Element} (legible : Legible elements)
    (plain : ∀ element ∈ elements, PlainElement element) :
    (readTokens elements).splitOnP isCommandBoundaryToken =
      (simpleCommands elements).map fun command => command.flatMap Element.tokens := by
  rw [readTokens_plain legible plain, simpleCommands]
  apply splitOnP_flatMap
  · intro element member separates
    cases element with
    | separator mark => exact ⟨mark.text, rfl, separator_token (plain _ member)⟩
    | _ => cases separates
  · intro element member separates token isToken
    have wellFormed := legible.wellFormed element member
    have isPlain := plain element member
    cases element with
    | blank tab => cases isToken
    | word fragments =>
        rw [List.mem_singleton.mp isToken]
        exact isPlain.noBoundary
    | separator mark => cases separates
    | redirect descriptor operator blanks target =>
        obtain ⟨digits, _, literal⟩ := wellFormed
        rcases List.mem_pair.mp isToken with rfl | rfl
        · exact redirection_no_boundary (operator_token digits isPlain.1)
        · exact target_no_boundary literal

theorem segmentParts_word {token : Bytes} (noOperator : isFileRedirectionOperator token = false) (rest : List Bytes) :
    segmentParts (token :: rest) = ((segmentParts rest).1, token :: (segmentParts rest).2) := by
  cases rest with
  | nil => simp [segmentParts, noOperator]
  | cons next rest => simp [segmentParts, noOperator]

theorem segmentParts_redirection {operator target : Bytes} (isOperator : isFileRedirectionOperator operator = true)
    (present : target ≠ []) (rest : List Bytes) :
    segmentParts (operator :: target :: rest) = (target :: (segmentParts rest).1, (segmentParts rest).2) := by
  simp [segmentParts, isOperator, present]

theorem segmentParts_plain {command : List Element} (wellFormed : ∀ element ∈ command, element.WellFormed)
    (plain : ∀ element ∈ command, PlainElement element) (single : ∀ element ∈ command, element.isSeparator = false) :
    segmentParts (command.flatMap Element.tokens) =
      (command.filterMap Element.target?, (wordsOf command).map wordValue) := by
  induction command with
  | nil => rfl
  | cons element command ih =>
      have rest := ih (fun other member => wellFormed other (List.mem_cons_of_mem _ member))
        (fun other member => plain other (List.mem_cons_of_mem _ member))
        (fun other member => single other (List.mem_cons_of_mem _ member))
      have isPlain := plain element (by simp)
      cases element with
      | blank tab => exact rest
      | separator mark => exact absurd (single (.separator mark) (by simp)) (by simp [Element.isSeparator])
      | word fragments =>
          rw [List.flatMap_cons, Element.tokens, List.singleton_append, segmentParts_word isPlain.noRedirection, rest]
          rfl
      | redirect descriptor operator blanks target =>
          obtain ⟨digits, _, literal⟩ := wellFormed (.redirect descriptor operator blanks target) (by simp)
          rw [List.flatMap_cons, Element.tokens, List.cons_append, List.singleton_append,
            segmentParts_redirection (operator_token digits isPlain.1) literal.1, rest]
          rfl

/-- A name without a sign in it is no assignment. -/
theorem noAssignment_of_name {value name : Bytes} (isName : pathFilename value = name) (noSign : equalsSign ∉ name) :
    isAssignmentToken value = false := by
  rw [Bool.eq_false_iff]
  intro assignment
  simp only [isAssignmentToken, Bool.and_eq_true, List.contains_iff_mem, Bool.not_eq_true',
    ← Bool.not_eq_true] at assignment
  have whole : pathFilename value = value := by
    rw [pathFilename, List.rtakeWhile_eq_self_iff]
    intro c member
    simpa using fun isSlash : c = slash => assignment.2 (isSlash ▸ member)
  exact noSign (isName ▸ whole.symm ▸ assignment.1)

theorem assignment_plain {word : ShellWord} (plain : PlainWord word) (assignment : isAssignmentWord word = true) :
    isAssignmentToken (wordValue word) = true := by
  have noSlash := plain.assignment assignment
  unfold isAssignmentWord at assignment
  split at assignment
  · rename_i text others
    simp only [Bool.and_eq_true] at assignment
    have sign : equalsSign ∈ wordValue (Fragment.literal text :: others) := by
      have inText : equalsSign ∈ text := by simpa using assignment.1.1.1
      simp [wordValue, Fragment.value, inText]
    simp [isAssignmentToken, sign, noSlash]
  · cases assignment

/-- The policy finds the command that the shell runs, if its name is no assignment. -/
theorem leads_plain {command : List Element} {word : ShellWord} {arguments : List ShellWord} {name : Bytes}
    (plain : ∀ element ∈ command, PlainElement element) (found : shellCommand command = word :: arguments)
    (isName : pathFilename (wordValue word) = name) (noSign : equalsSign ∉ name) (lower : toLowerCopy name = name)
    (noEnv : name ≠ bytes "env") :
    ∃ before, (wordsOf command).map wordValue = before ++ wordValue word :: arguments.map wordValue ∧
      LeadsCommand before (wordValue word) ∧ commandBasename (wordValue word) = name := by
  have basename : commandBasename (wordValue word) = name := by rw [commandBasename, isName, lower]
  refine ⟨((wordsOf command).takeWhile isAssignmentWord).map wordValue, ?_, ?_, basename⟩
  · rw [← List.map_cons, ← List.map_append, ← found, shellCommand, List.takeWhile_append_dropWhile]
  · refine .assignments ?_ (noAssignment_of_name isName noSign) (basename ▸ noEnv)
    intro value member
    obtain ⟨assigned, assignedMember, rfl⟩ := List.mem_map.mp member
    obtain ⟨element, inCommand, isWord⟩ := List.mem_filterMap.mp (List.takeWhile_subset _ assignedMember)
    cases element with
    | word fragments =>
        cases isWord
        exact assignment_plain (plain _ inCommand) (List.mem_takeWhile_imp assignedMember)
    | _ => cases isWord

end Commands

end ReqPack.PluginHost
