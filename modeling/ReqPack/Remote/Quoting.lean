import ReqPack.Remote.Tokens

/-! # Quoted and unquoted arguments

An argument with a blank or a quotation mark is written in double quotes and comes
through.  Any other argument is written as it is, and comes through when it holds
neither a backslash nor white space of the tokenizer.
-/

namespace ReqPack.Remote

open ReqPack.Data
open ReqPack.Data.Ascii

def survives (argument : Bytes) : Bool := needsQuotes argument || !argument.any isSpecial

namespace Tokenizer

variable {state : Tokenizer} {c : UInt8}

theorem step_quotes (single : c ≠ singleQuote) (double : c ≠ doubleQuote) :
    (state.step c).inSingleQuotes = state.inSingleQuotes ∧
      (state.step c).inDoubleQuotes = state.inDoubleQuotes := by
  simp only [step]
  split
  · exact ⟨rfl, rfl⟩
  · split
    · exact ⟨rfl, rfl⟩
    · simp [single, double]
      split <;> simp

theorem run_quotes {text : Bytes} (single : singleQuote ∉ text) (double : doubleQuote ∉ text) :
    (state.run text).inSingleQuotes = state.inSingleQuotes ∧
      (state.run text).inDoubleQuotes = state.inDoubleQuotes := by
  induction text generalizing state with
  | nil => exact ⟨rfl, rfl⟩
  | cons c text ih =>
      simp only [List.mem_cons, not_or] at single double
      have first := @step_quotes state c (Ne.symm single.1) (Ne.symm double.1)
      have rest := @ih (state.step c) single.2 double.2
      exact ⟨rest.1.trans first.1, rest.2.trans first.2⟩

/-- Inside double quotes, where a quoted argument is read. -/
structure InDouble (state : Tokenizer) : Prop where
  single : state.inSingleQuotes = false
  double : state.inDoubleQuotes = true
  settled : state.escaping = false

/-- Outside double quotes with no backslash pending. -/
structure NotDouble (state : Tokenizer) : Prop where
  double : state.inDoubleQuotes = false
  settled : state.escaping = false

/-- Both quotations open at once: nothing ends either of them. -/
structure InBoth (state : Tokenizer) : Prop where
  single : state.inSingleQuotes = true
  double : state.inDoubleQuotes = true
  settled : state.escaping = false

theorem step_opening (ready : state.Ready) :
    state.step doubleQuote = { state with inDoubleQuotes := true } := by
  simp [step, ready.2, ready.1.1, ready.1.2, show (doubleQuote == backslash) = false by decide,
    show (doubleQuote == singleQuote) = false by decide]

theorem step_closing (quoted : state.InDouble) :
    state.step doubleQuote = { state with inDoubleQuotes := false } := by
  simp [step, quoted.settled, quoted.single, quoted.double,
    show (doubleQuote == backslash) = false by decide, show (doubleQuote == singleQuote) = false by decide]

theorem step_inDouble (quoted : state.InDouble) (slashed : c ≠ backslash) (closing : c ≠ doubleQuote) :
    state.step c = { state with current := state.current ++ [c] } := by
  simp [step, quoted.settled, quoted.single, quoted.double, slashed, closing]

/-- A byte as it is quoted. -/
theorem run_quoteByte (quoted : state.InDouble) :
    state.run (quoteByte c) = { state with current := state.current ++ [c] } := by
  simp only [quoteByte]
  split
  · simp [step, quoted.settled, quoted.single]
  · rename_i ordinary
    simp only [not_or] at ordinary
    rw [run_cons, run_nil, step_inDouble quoted ordinary.1 ordinary.2]

theorem run_quoteBytes {argument : Bytes} (quoted : state.InDouble) :
    state.run (argument.flatMap quoteByte) = { state with current := state.current ++ argument } := by
  induction argument generalizing state with
  | nil => simp
  | cons c argument ih =>
      rw [List.flatMap_cons, run_append, run_quoteByte quoted,
        @ih { state with current := state.current ++ [c] } ⟨quoted.single, quoted.double, quoted.settled⟩]
      simp

/-- A quoted byte read outside double quotes does not get into them. -/
theorem run_quoteByte_notDouble (unquoted : state.NotDouble) : (state.run (quoteByte c)).NotDouble := by
  obtain ⟨double, settled⟩ := unquoted
  simp only [quoteByte]
  split
  · rename_i special
    cases single : state.inSingleQuotes with
    | true =>
        have slashed : state.step backslash = { state with current := state.current ++ [backslash] } := by
          simp [step, settled, single, show isSpace backslash = false by decide,
            show (backslash == singleQuote) = false by decide]
        rw [run_cons, run_cons, run_nil, slashed]
        rcases special with rfl | rfl
        · exact ⟨by simp [step, settled, single, double, show (backslash == singleQuote) = false by decide],
            by simp [step, settled, single, show (backslash == singleQuote) = false by decide]⟩
        · exact ⟨by simp [step, settled, single, double, show (doubleQuote == singleQuote) = false by decide],
            by simp [step, settled, single, show (doubleQuote == singleQuote) = false by decide]⟩
    | false =>
        have slashed : state.step backslash = { state with escaping := true } := by
          simp [step, settled, single]
        rw [run_cons, run_cons, run_nil, slashed, step_escaping rfl]
        exact ⟨double, rfl⟩
  · rename_i ordinary
    simp only [not_or] at ordinary
    rw [run_cons, run_nil]
    simp only [step, settled, ordinary, beq_iff_eq, Bool.false_eq_true, if_false, false_and, Bool.and_eq_true]
    split
    · exact ⟨double, rfl⟩
    · split
      · exact ⟨by simpa using double, by simpa using settled⟩
      · exact ⟨double, rfl⟩

theorem run_quoteBytes_notDouble {argument : Bytes} (unquoted : state.NotDouble) :
    (state.run (argument.flatMap quoteByte)).NotDouble := by
  induction argument generalizing state with
  | nil => exact unquoted
  | cons c argument ih =>
      rw [List.flatMap_cons, run_append]
      exact ih (run_quoteByte_notDouble unquoted)

/-- A double quote outside double quotes opens them, unless it is quoted itself. -/
theorem step_doubleQuote_notDouble (unquoted : state.NotDouble) : ¬ (state.step doubleQuote).Outside := by
  cases single : state.inSingleQuotes <;>
    simp [Outside, step, unquoted.settled, unquoted.double, single,
      show (doubleQuote == backslash) = false by decide, show (doubleQuote == singleQuote) = false by decide]

theorem step_inBoth (both : state.InBoth) : (state.step c).InBoth := by
  obtain ⟨single, double, settled⟩ := both
  simp only [step, settled, single, double]
  exact ⟨by simp, by simp, by simp⟩

theorem run_inBoth {text : Bytes} (both : state.InBoth) : (state.run text).InBoth := by
  induction text generalizing state with
  | nil => exact both
  | cons c text ih => exact ih (step_inBoth both)

/-- The rest of a quoted argument, read anywhere but in double quotes, leaves a
quotation open. -/
theorem run_quoteBytes_end {argument : Bytes} (settled : state.escaping = false)
    (elsewhere : ¬ state.InDouble) :
    ¬ (state.run (argument.flatMap quoteByte ++ [doubleQuote])).Outside := by
  rw [run_append, run_cons, run_nil]
  cases double : state.inDoubleQuotes with
  | false => exact step_doubleQuote_notDouble (run_quoteBytes_notDouble ⟨double, settled⟩)
  | true =>
      cases single : state.inSingleQuotes with
      | false => exact absurd ⟨single, double, settled⟩ elsewhere
      | true =>
          have both := step_inBoth (c := doubleQuote)
            (@run_inBoth state (argument.flatMap quoteByte) ⟨single, double, settled⟩)
          intro outside
          rw [Outside, both.single] at outside
          exact absurd outside.1 (by decide)

end Tokenizer

theorem not_mem_of_not_needsQuotes {argument : Bytes} (bare : needsQuotes argument = false) :
    singleQuote ∉ argument ∧ doubleQuote ∉ argument := by
  simp only [needsQuotes, List.any_eq_false, Bool.or_eq_true, not_or, beq_iff_eq] at bare
  exact ⟨fun member => (bare _ member).2 rfl, fun member => (bare _ member).1.2 rfl⟩

namespace Piece

def raw (text : Bytes) : Piece := ⟨text, text, !text.any isSpecial⟩

def argument (value : Bytes) : Piece := ⟨quoteArgument value, value, survives value⟩

theorem raw_measured (text : Bytes) : (raw text).Measured where
  weight := by
    intro state ready _
    by_cases special : text.any isSpecial = true
    · have lost := Tokenizer.run_weight_lt ready.1 special
      have damaged : (raw text).intact = false := by simp [raw, special]
      rw [damaged]
      exact lost
    · have bound := @Tokenizer.run_weight_le state text
      have intact : (raw text).intact = true := by simp [raw, special]
      rw [intact]
      exact bound
  sound := by
    intro intact state ready
    simp only [raw, Bool.not_eq_true'] at intact
    exact Tokenizer.run_plain intact ready.2

theorem argument_of_bare {value : Bytes} (bare : needsQuotes value = false) : argument value = raw value := by
  simp [argument, raw, quoteArgument, survives, bare]

theorem argument_quoted_run {value : Bytes} (quotes : needsQuotes value = true) {state : Tokenizer}
    (ready : state.Ready) :
    state.run (argument value).text = { state with current := state.current ++ value } := by
  have quoted : ({ state with inDoubleQuotes := true } : Tokenizer).InDouble := ⟨ready.1.1, rfl, ready.2⟩
  have inner : ({ state with inDoubleQuotes := true, current := state.current ++ value } :
      Tokenizer).InDouble := ⟨ready.1.1, rfl, ready.2⟩
  simp only [argument, quoteArgument, quotes, if_true]
  rw [Tokenizer.run_cons, Tokenizer.step_opening ready, Tokenizer.run_append, Tokenizer.run_quoteBytes quoted,
    Tokenizer.run_cons, Tokenizer.step_closing inner, Tokenizer.run_nil]
  simp [ready.1.2]

theorem argument_measured (value : Bytes) : (argument value).Measured := by
  cases quotes : needsQuotes value with
  | false => exact argument_of_bare quotes ▸ raw_measured value
  | true =>
      constructor
      · intro state ready _
        rw [argument_quoted_run quotes ready]
        simp [argument, survives, quotes, Tokenizer.weight]
        omega
      · intro _ state ready
        exact argument_quoted_run quotes ready

theorem argument_closed (value : Bytes) : (argument value).Closed := by
  intro state ready
  cases quotes : needsQuotes value with
  | false =>
      rw [argument_of_bare quotes]
      obtain ⟨single, double⟩ := not_mem_of_not_needsQuotes quotes
      exact Tokenizer.run_outside ready.1 single double
  | true =>
      rw [argument_quoted_run quotes ready]
      exact ready.1

theorem argument_absorbed (value : Bytes) : (argument value).Absorbed := by
  intro state inside settled
  cases quotes : needsQuotes value with
  | false =>
      rw [argument_of_bare quotes]
      obtain ⟨single, double⟩ := not_mem_of_not_needsQuotes quotes
      obtain ⟨sameSingle, sameDouble⟩ := @Tokenizer.run_quotes state value single double
      simpa [Tokenizer.Outside, raw, sameSingle, sameDouble] using inside
  | true =>
      simp only [argument, quoteArgument, quotes, if_true]
      rw [Tokenizer.run_cons]
      -- the quotation mark ends double quotes and means nothing in single ones
      cases double : state.inDoubleQuotes with
      | false =>
          have single : state.inSingleQuotes = true := by simpa [Tokenizer.Outside, double] using inside
          apply Tokenizer.run_quoteBytes_end
          · simp [Tokenizer.step, settled, single, show (doubleQuote == singleQuote) = false by decide]
          · intro quoted
            have moved := quoted.double
            simp [Tokenizer.step, settled, single, double,
              show (doubleQuote == singleQuote) = false by decide] at moved
      | true =>
          cases single : state.inSingleQuotes with
          | false =>
              rw [Tokenizer.step_closing ⟨single, double, settled⟩]
              refine Tokenizer.run_quoteBytes_end ?_ ?_
              · exact settled
              intro quoted
              exact absurd quoted.double (by simp)
          | true =>
              have both := @Tokenizer.step_inBoth state doubleQuote ⟨single, double, settled⟩
              apply Tokenizer.run_quoteBytes_end both.settled
              intro quoted
              exact absurd (both.single.symm.trans quoted.single) (by decide)

theorem joinTexts_arguments (arguments : List Bytes) :
    joinTexts (arguments.map argument) = joinArguments arguments := by
  simp [joinTexts, joinArguments, argument, Function.comp_def]

theorem arguments_ordered (arguments : List Bytes) :
    (arguments.map argument).Pairwise fun first later => first.Closed ∨ later.Absorbed := by
  rw [List.pairwise_map]
  exact List.pairwise_of_forall fun first _ => Or.inl (argument_closed first)

end Piece

/-- Joined arguments are cut into the arguments again exactly when each of them comes
through. -/
theorem tokenize_joinArguments_iff {arguments : List Bytes} (named : ∀ argument ∈ arguments, argument ≠ []) :
    tokenizeCommandLine (joinArguments arguments) = arguments ↔
      ∀ argument ∈ arguments, survives argument = true := by
  cases arguments with
  | nil => simp [joinArguments, List.intercalate, tokenizeCommandLine, Tokenizer.start, Tokenizer.run,
      Tokenizer.finish, Tokenizer.push]
  | cons first rest =>
      have values : ((first :: rest).map Piece.argument).map Piece.value = first :: rest := by
        simp [Piece.argument, Function.comp_def]
      have cuts := @tokenize_pieces_iff ((first :: rest).map Piece.argument) (by simp)
        (by
          intro piece member
          obtain ⟨value, _, rfl⟩ := List.mem_map.mp member
          exact Piece.argument_measured value)
        (by simpa [Piece.argument] using named) (Piece.arguments_ordered _) (first :: rest) (by rw [values])
      rw [Piece.joinTexts_arguments] at cuts
      rw [cuts, values]
      simp [Piece.argument, List.all_eq_true]

end ReqPack.Remote
