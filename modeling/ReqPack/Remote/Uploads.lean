import ReqPack.Remote.Client
import ReqPack.Remote.Placeholder

/-! # Arguments on their way to the server

The header of an upload carries the name of the file and the command as two of its
arguments.  The command always needs quotes and comes through; the name of the file may
be cut or run on, and then the command is not where the server looks for it.
-/

namespace ReqPack.Remote

open ReqPack.Data
open ReqPack.Data.Ascii

/-- Whether text ends a word that has begun: a backslash takes the next byte along, and
behind white space there is nothing but white space. -/
def wordEnds : Bytes → Bool
  | [] => true
  | [c] => c != backslash
  | c :: next :: rest =>
      if c = backslash then wordEnds rest
      else if isSpace c then (next :: rest).all isSpace
      else wordEnds (next :: rest)

/-- Unquoted text that is one token, with white space around it or not. -/
def oneWord (text : Bytes) : Bool :=
  !(text.dropWhile isSpace).isEmpty && wordEnds (text.dropWhile isSpace)

namespace Tokenizer

variable {state : Tokenizer} {c : UInt8} {text : Bytes}

/-- The tokens so far, with the one that has begun. -/
def words (state : Tokenizer) : Nat :=
  state.tokens.length + (if state.current.isEmpty && !state.escaping then 0 else 1)

/-- What a byte other than a quotation mark does outside quotes. -/
theorem step_bare (outside : state.Outside) (single : c ≠ singleQuote) (double : c ≠ doubleQuote) :
    state.step c =
      if state.escaping then { state with current := state.current ++ [c], escaping := false }
      else if c = backslash then { state with escaping := true }
      else if isSpace c then state.push
      else { state with current := state.current ++ [c] } := by
  simp [step, outside.1, outside.2, single, double]

theorem push_words (settled : state.escaping = false) : state.push.words = state.words := by
  simp only [push]
  split
  · rfl
  · rename_i begun
    simp [words, begun, settled]

theorem step_words_le (outside : state.Outside) (single : c ≠ singleQuote) (double : c ≠ doubleQuote) :
    state.words ≤ (state.step c).words := by
  rw [step_bare outside single double]
  split
  · rename_i pending
    simp [words, pending]
  · rename_i settled
    split
    · simp only [words]
      split <;> simp
    · split
      · exact (push_words (by simpa using settled)).ge
      · simp only [words]
        split <;> simp

theorem run_words_le (outside : state.Outside) (single : singleQuote ∉ text) (double : doubleQuote ∉ text) :
    state.words ≤ (state.run text).words := by
  induction text generalizing state with
  | nil => exact Nat.le_refl _
  | cons c text ih =>
      simp only [List.mem_cons, not_or] at single double
      have first := step_words_le outside (Ne.symm single.1) (Ne.symm double.1)
      exact first.trans (ih (step_outside outside (Ne.symm single.1) (Ne.symm double.1)) single.2 double.2)

/-- Between two words only white space begins no word. -/
theorem run_between_iff (ready : state.Ready) (fresh : state.current = []) (single : singleQuote ∉ text)
    (double : doubleQuote ∉ text) : (state.run text).words = state.words ↔ text.all isSpace = true := by
  induction text with
  | nil => simp
  | cons c text ih =>
      simp only [List.mem_cons, not_or] at single double
      rw [run_cons]
      by_cases blank : isSpace c = true
      · have kept : state.step c = state := by
          rw [step_bare ready.1 (Ne.symm single.1) (Ne.symm double.1), ready.2]
          have other : c ≠ backslash := by
            rintro rfl
            exact absurd blank (by decide)
          simp [other, blank, push, fresh]
        rw [kept, ih single.2 double.2]
        simp [blank]
      · have begun : (state.step c).words = state.words + 1 := by
          rw [step_bare ready.1 (Ne.symm single.1) (Ne.symm double.1), ready.2]
          by_cases other : c = backslash
          · simp [other, words, fresh, ready.2]
          · simp [other, blank, words, fresh, ready.2]
        have further := run_words_le (step_outside ready.1 (Ne.symm single.1) (Ne.symm double.1))
          single.2 double.2
        simp [blank]
        omega

theorem run_inside_iff (ready : state.Ready) (begun : state.current ≠ []) (single : singleQuote ∉ text)
    (double : doubleQuote ∉ text) :
    (state.run text).escaping = false ∧ (state.run text).words = state.words ↔ wordEnds text = true := by
  induction text using wordEnds.induct generalizing state with
  | case1 => simp [wordEnds, ready.2]
  | case2 c =>
      simp only [List.mem_singleton] at single double
      rw [run_cons, run_nil, step_bare ready.1 (Ne.symm single) (Ne.symm double), ready.2]
      by_cases slashed : c = backslash
      · simp [slashed, wordEnds]
      · by_cases blank : isSpace c = true
        · simp [slashed, blank, wordEnds, push_words ready.2, ready.2]
        · simp [slashed, blank, wordEnds, words, begun, ready.2]
  | case3 next rest ih =>
      simp only [List.mem_cons, not_or] at single double
      have taken : (state.step backslash).step next = { state with current := state.current ++ [next] } := by
        rw [step_bare ready.1 (by decide) (by decide), ready.2]
        simp [step_escaping]
      rw [run_cons, run_cons, taken, wordEnds, if_pos rfl]
      have inside := @ih { state with current := state.current ++ [next] } ready (by simp) single.2.2 double.2.2
      simpa [words, begun] using inside
  | case4 c next rest slashed blank =>
      rw [List.mem_cons, not_or] at single double
      have cut : state.step c = state.push := by
        rw [step_bare ready.1 (Ne.symm single.1) (Ne.symm double.1), ready.2]
        simp [slashed, blank]
      have pushed : state.push.Ready := ⟨by simpa [Outside] using ready.1, by simpa using ready.2⟩
      have behind := @run_between_iff state.push (next :: rest) pushed (by simp [push, begun]) single.2 double.2
      rw [run_cons, cut, wordEnds, if_neg slashed, if_pos blank, ← behind, push_words ready.2]
      constructor
      · exact And.right
      · intro same
        have blanks := behind.mp (by rw [same, push_words ready.2])
        refine ⟨?_, same⟩
        have last : (next :: rest).getLast? ≠ some backslash := by
          intro final
          have listed := List.mem_of_getLast? final
          exact absurd (List.all_eq_true.mp blanks _ listed) (by decide)
        exact run_settles pushed.2 last
  | case5 c next rest slashed blank ih =>
      rw [List.mem_cons, not_or] at single double
      have kept : state.step c = { state with current := state.current ++ [c] } := by
        rw [step_bare ready.1 (Ne.symm single.1) (Ne.symm double.1), ready.2]
        simp [slashed, blank]
      rw [run_cons, kept, wordEnds, if_neg slashed, if_neg blank]
      have inside := @ih { state with current := state.current ++ [c] } ready (by simp) single.2 double.2
      simpa [words, begun] using inside

/-- Unquoted text behind a blank is one more token exactly when it is one word. -/
theorem run_word_iff (ready : state.Ready) (fresh : state.current = []) (single : singleQuote ∉ text)
    (double : doubleQuote ∉ text) :
    (state.run text).escaping = false ∧ (state.run text).words = state.words + 1 ↔ oneWord text = true := by
  have halves := (List.takeWhile_append_dropWhile (p := isSpace) (l := text)).symm
  have spaces : state.run (text.takeWhile isSpace) = state := by
    have blanks : ∀ c ∈ text.takeWhile isSpace, isSpace c = true := fun c member =>
      (List.mem_takeWhile_imp member)
    generalize text.takeWhile isSpace = front at blanks
    induction front with
    | nil => rfl
    | cons c front ih =>
        have blank := blanks c List.mem_cons_self
        have kept : state.step c = state := by
          rw [step_bare ready.1 (by rintro rfl; exact absurd blank (by decide))
            (by rintro rfl; exact absurd blank (by decide)), ready.2]
          have other : c ≠ backslash := by
            rintro rfl
            exact absurd blank (by decide)
          simp [other, blank, push, fresh]
        rw [run_cons, kept, ih fun later member => blanks later (List.mem_cons_of_mem _ member)]
  have whole : state.run text = state.run (text.dropWhile isSpace) := by
    conv_lhs => rw [halves, run_append, spaces]
  have suffix := List.dropWhile_suffix (p := isSpace) (l := text)
  rw [whole, oneWord]
  cases body : text.dropWhile isSpace with
  | nil => simp [words]
  | cons c rest =>
      have ordinary : isSpace c = false := by
        have head := List.head_dropWhile_not isSpace (show text.dropWhile isSpace ≠ [] by simp [body])
        simpa [body] using head
      rw [body] at suffix
      have singleRest : singleQuote ∉ c :: rest := fun member => single (suffix.subset member)
      have doubleRest : doubleQuote ∉ c :: rest := fun member => double (suffix.subset member)
      rw [List.mem_cons, not_or] at singleRest doubleRest
      simp only [List.isEmpty_cons, Bool.not_false, Bool.true_and]
      by_cases slashed : c = backslash
      · subst slashed
        cases rest with
        | nil => simp [step, ready.2, ready.1.1, wordEnds]
        | cons next rest =>
            have taken : (state.step backslash).step next = { state with current := state.current ++ [next] } := by
              rw [step_bare ready.1 (by decide) (by decide), ready.2]
              simp [step_escaping]
            simp only [List.mem_cons, not_or] at singleRest doubleRest
            have inside := @run_inside_iff { state with current := state.current ++ [next] } rest ready
              (by simp) singleRest.2.2 doubleRest.2.2
            rw [run_cons, run_cons, taken, wordEnds, if_pos rfl, ← inside]
            simp [words, fresh, ready.2]
      · have kept : state.step c = { state with current := state.current ++ [c] } := by
          rw [step_bare ready.1 (Ne.symm singleRest.1) (Ne.symm doubleRest.1), ready.2]
          simp [slashed, ordinary]
        have inside := @run_inside_iff { state with current := state.current ++ [c] } rest ready
          (by simp) singleRest.2 doubleRest.2
        have ends : wordEnds (c :: rest) = wordEnds rest := by
          cases rest with
          | nil => simp [wordEnds, slashed]
          | cons next rest => rw [wordEnds, if_neg slashed, if_neg (by simp [ordinary])]
        rw [run_cons, kept, ends, ← inside]
        simp [words, fresh, ready.2]

/-- The state behind complete tokens and a blank. -/
def behind (tokens : List Bytes) : Tokenizer := ⟨tokens, [], false, false, false⟩

theorem behind_ready (tokens : List Bytes) : (behind tokens).Ready := ⟨⟨rfl, rfl⟩, rfl⟩

/-- An argument that comes through and the blank behind it. -/
theorem run_argument_space {value : Bytes} (tokens : List Bytes) (named : value ≠ [])
    (intact : survives value = true) :
    ((behind tokens).run (quoteArgument value)).step space = behind (tokens ++ [value]) := by
  have read := (Piece.argument_measured value).sound intact (behind_ready tokens)
  have between : ({ behind tokens with current := (behind tokens).current ++ (Piece.argument value).value } :
      Tokenizer).Ready := behind_ready tokens
  rw [show quoteArgument value = (Piece.argument value).text from rfl, read, step_space_ready_eq between]
  simp [push, behind, named, Piece.argument]

/-- Tokens behind `front` and the one that has begun hold no blank. -/
def Unspaced (front : List Bytes) (state : Tokenizer) : Prop :=
  (∃ tokens, state.tokens = front ++ tokens ∧ ∀ token ∈ tokens, space ∉ token ∧ token ≠ []) ∧
    space ∉ state.current

theorem push_unspaced {front : List Bytes} (unspaced : state.Unspaced front) : state.push.Unspaced front := by
  simp only [push]
  split
  · exact unspaced
  · rename_i begun
    obtain ⟨⟨tokens, whole, clear⟩, inside⟩ := unspaced
    refine ⟨⟨tokens ++ [state.current], by simp [whole], ?_⟩, by simp⟩
    intro token member
    rcases List.mem_append.mp member with earlier | last
    · exact clear token earlier
    · rw [List.mem_singleton.mp last]
      exact ⟨inside, by simpa using begun⟩

theorem step_unspaced {front : List Bytes} (unspaced : state.Unspaced front) (other : c ≠ space) :
    (state.step c).Unspaced front := by
  have grown : space ∉ state.current ++ [c] := by simp [unspaced.2, Ne.symm other]
  simp only [step]
  split
  · exact ⟨unspaced.1, grown⟩
  · split
    · exact unspaced
    · split
      · exact unspaced
      · split
        · exact unspaced
        · split
          · exact push_unspaced unspaced
          · exact ⟨unspaced.1, grown⟩

theorem run_unspaced {front : List Bytes} (unspaced : state.Unspaced front) (absent : space ∉ text) :
    (state.run text).Unspaced front := by
  induction text generalizing state with
  | nil => exact unspaced
  | cons c text ih =>
      simp only [List.mem_cons, not_or] at absent
      exact ih (step_unspaced unspaced (Ne.symm absent.1)) absent.2

end Tokenizer

theorem survives_of_plain {argument : Bytes} (plain : argument.any isSpecial = false) :
    survives argument = true := by
  simp [survives, plain]

theorem toDecimal_plain (value : Nat) : (toDecimal value).any isSpecial = false := by
  rw [List.any_eq_false]
  intro c member
  have digit := isDigit_of_mem_toDecimal member
  simp only [isSpecial, Bool.or_eq_true, beq_iff_eq, not_or, isDigit_not_isSpace digit, Bool.false_eq_true,
    not_false_eq_true, and_true]
  refine ⟨⟨?_, ?_⟩, ?_⟩ <;>
  · rintro rfl
    exact absurd digit (by decide)

/-- The header with a file name that is not quoted. -/
theorem tokenize_uploadHeader_bare {request : UploadInstallRequest} (bare : needsQuotes request.filename = false)
    (quotes : needsQuotes request.commandTemplate = true) {named : Tokenizer}
    (read : named = ((Tokenizer.behind [remoteUploadInstallCommand, toDecimal request.size]).run
      request.filename).step space) :
    tokenizeCommandLine (uploadHeader request) =
      named.tokens ++ [named.current ++ request.commandTemplate] := by
  obtain ⟨single, double⟩ := not_mem_of_not_needsQuotes bare
  have first := @Tokenizer.run_argument_space remoteUploadInstallCommand [] (by decide) (by decide)
  have second := @Tokenizer.run_argument_space (toDecimal request.size) [remoteUploadInstallCommand]
    (toDecimal_ne_nil _) (survives_of_plain (toDecimal_plain _))
  have third : quoteArgument request.filename = request.filename := by simp [quoteArgument, bare]
  have between : named.Ready := read ▸ Tokenizer.step_space_ready
    (Tokenizer.run_outside (Tokenizer.behind_ready _).1 single double)
  have last := Piece.argument_quoted_run quotes between
  have filled : request.commandTemplate ≠ [] := by
    intro empty
    rw [empty] at quotes
    exact absurd quotes (by decide)
  simp only [uploadHeader, joinArguments, List.map_cons, List.map_nil, List.intercalate_cons_cons,
    List.intercalate_singleton, List.append_assoc, List.singleton_append, tokenizeCommandLine,
    Tokenizer.run_append, Tokenizer.run_cons, third]
  rw [show Tokenizer.start = Tokenizer.behind [] from rfl, first, List.nil_append, second, List.cons_append,
    List.nil_append, ← read,
    show quoteArgument request.commandTemplate = (Piece.argument request.commandTemplate).text from rfl, last]
  simp [Tokenizer.finish, Tokenizer.push, between.1.1, between.1.2, between.2, filled]

/-- What the server takes for the command when `names` stand between the size and the end
of the header. -/
theorem envelope_template_iff {size : Nat} (sized : size < 2 ^ 64) {names : List Bytes}
    (clear : ∀ name ∈ names, space ∉ name ∧ name ≠ []) {current commandTemplate : Bytes}
    (spaced : space ∈ commandTemplate) :
    (∃ envelope, parseUploadInstallEnvelope
        ([remoteUploadInstallCommand, toDecimal size] ++ names ++ [current ++ commandTemplate]) = some envelope ∧
        envelope.commandTemplate = commandTemplate) ↔ names.length = 1 ∧ current = [] := by
  have filled : commandTemplate ≠ [] := List.ne_nil_of_mem spaced
  match names, clear with
  | [], _ => simp [parseUploadInstallEnvelope]
  | [name], clear =>
      simp [parseUploadInstallEnvelope, stoull_toDecimal sized, (clear name (by simp)).2, filled]
  | first :: second :: rest, clear =>
      obtain ⟨unspaced, present⟩ := clear second (by simp)
      have other : second ≠ commandTemplate := by
        rintro rfl
        exact unspaced spaced
      simp [parseUploadInstallEnvelope, stoull_toDecimal sized, (clear first (by simp)).2, present, other]

/-- The server finds the command of an upload exactly when the name of the file is
quoted or one word. -/
theorem upload_template_arrives_iff {request : UploadInstallRequest} (sized : request.size < 2 ^ 64)
    (spaced : space ∈ request.commandTemplate) :
    (∃ envelope, parseUploadInstallEnvelope (tokenizeCommandLine (uploadHeader request)) = some envelope ∧
        envelope.commandTemplate = request.commandTemplate) ↔
      (needsQuotes request.filename || oneWord request.filename) = true := by
  have quotes : needsQuotes request.commandTemplate = true := by
    rw [needsQuotes, List.any_eq_true]
    exact ⟨space, spaced, by decide⟩
  have filled : request.commandTemplate ≠ [] := List.ne_nil_of_mem spaced
  cases bare : needsQuotes request.filename with
  | true =>
      have present : request.filename ≠ [] := by
        intro empty
        rw [empty] at bare
        exact absurd bare (by decide)
      have tokens : tokenizeCommandLine (uploadHeader request) =
          [remoteUploadInstallCommand, toDecimal request.size, request.filename, request.commandTemplate] := by
        apply (tokenize_joinArguments_iff ?_).mpr
        · intro argument member
          simp only [List.mem_cons, List.not_mem_nil, or_false] at member
          rcases member with rfl | rfl | rfl | rfl
          · decide
          · exact survives_of_plain (toDecimal_plain _)
          · simp [survives, bare]
          · simp [survives, quotes]
        · intro argument member
          simp only [List.mem_cons, List.not_mem_nil, or_false] at member
          rcases member with rfl | rfl | rfl | rfl
          · decide
          · exact toDecimal_ne_nil _
          · exact present
          · exact filled
      simp [tokens, parseUploadInstallEnvelope, stoull_toDecimal sized, present, filled]
  | false =>
      obtain ⟨single, double⟩ := not_mem_of_not_needsQuotes bare
      have blank : space ∉ request.filename := by
        intro member
        rw [needsQuotes, List.any_eq_false] at bare
        exact bare space member (by decide)
      set read := (Tokenizer.behind [remoteUploadInstallCommand, toDecimal request.size]).run request.filename
        with readState
      have tokens := @tokenize_uploadHeader_bare request bare quotes (read.step space) rfl
      have word := Tokenizer.run_word_iff (Tokenizer.behind_ready [remoteUploadInstallCommand,
        toDecimal request.size]) rfl single double
      rw [← readState] at word
      have outside : read.Outside := Tokenizer.run_outside (Tokenizer.behind_ready _).1 single double
      have unspaced : read.Unspaced [remoteUploadInstallCommand, toDecimal request.size] :=
        Tokenizer.run_unspaced ⟨⟨[], by simp [Tokenizer.behind], by simp⟩, by simp [Tokenizer.behind]⟩ blank
      rw [Bool.false_or, ← word, tokens]
      cases pending : read.escaping with
      | true =>
          obtain ⟨⟨names, whole, clear⟩, _⟩ := unspaced
          rw [Tokenizer.step_escaping pending, whole, envelope_template_iff sized clear spaced]
          simp
      | false =>
          obtain ⟨⟨names, whole, clear⟩, _⟩ := Tokenizer.push_unspaced unspaced
          have ended : read.push.current = [] := by
            simp only [Tokenizer.push]
            split
            · rename_i empty
              simpa using empty
            · rfl
          have count : read.words = 2 + names.length := by
            rw [← Tokenizer.push_words pending, Tokenizer.words, ended, Tokenizer.push_escaping, pending, whole]
            simp
            omega
          rw [Tokenizer.step_space_ready_eq ⟨outside, pending⟩, whole, envelope_template_iff sized clear spaced,
            ended, count]
          simp [Tokenizer.words, Tokenizer.behind]
          omega

end ReqPack.Remote
