import ReqPack.Remote.Quoting

/-! # Replacing the placeholder of an upload

The server looks for the first occurrence of the placeholder in the command a client
sent with an upload.  The placeholder holds no byte that quoting touches, so that it
occurs in a command only where it occurs in one of the arguments.
-/

namespace ReqPack.Remote

open ReqPack.Data
open ReqPack.Data.Ascii

section Splitting

variable {pattern : Bytes} {c : UInt8}

theorem splitFirst_eq_some {text : Bytes} {parts : Bytes × Bytes}
    (found : splitFirst pattern text = some parts) : text = parts.1 ++ pattern ++ parts.2 := by
  induction text generalizing parts with
  | nil =>
      simp only [splitFirst] at found
      split at found
      · rename_i empty
        cases found
        simpa using empty
      · cases found
  | cons c rest ih =>
      simp only [splitFirst] at found
      split at found
      · rename_i leads
        cases found
        obtain ⟨behind, whole⟩ := List.isPrefixOf_iff_prefix.mp leads
        rw [← whole]
        simp
      · obtain ⟨inner, deeper, rfl⟩ := Option.map_eq_some_iff.mp found
        simp [ih deeper]

theorem isPrefixOf_separated (absent : c ∉ pattern) (front back : Bytes) :
    pattern.isPrefixOf (front ++ c :: back) = pattern.isPrefixOf front := by
  induction pattern generalizing front with
  | nil => simp
  | cons letter pattern ih =>
      simp only [List.mem_cons, not_or] at absent
      cases front with
      | nil => simp [List.isPrefixOf, Ne.symm absent.1]
      | cons first front => simp [List.isPrefixOf, ih absent.2]

/-- A byte the pattern does not hold cuts the search in two. -/
theorem splitFirst_separated (absent : c ∉ pattern) (present : pattern ≠ []) (front back : Bytes) :
    splitFirst pattern (front ++ c :: back) =
      match splitFirst pattern front with
      | some parts => some (parts.1, parts.2 ++ c :: back)
      | none => (splitFirst pattern back).map fun parts => (front ++ c :: parts.1, parts.2) := by
  induction front with
  | nil =>
      have leads := isPrefixOf_separated absent [] back
      have empty : pattern.isPrefixOf [] = false := by
        cases pattern with
        | nil => exact absurd rfl present
        | cons letter pattern => rfl
      simp only [List.nil_append] at leads ⊢
      simp [splitFirst, leads, empty, present]
  | cons first front ih =>
      have leads := isPrefixOf_separated absent (first :: front) back
      simp only [List.cons_append] at leads ⊢
      simp only [splitFirst, leads]
      split
      · rename_i fits
        have room := (List.isPrefixOf_iff_prefix.mp fits).length_le
        simp only [List.length_cons] at room
        rw [← List.cons_append, List.drop_append_of_le_length (by simpa using room)]
      · rw [ih]
        cases splitFirst pattern front with
        | none => simp [Function.comp_def]
        | some parts => rfl

theorem splitFirst_cons_absent (absent : c ∉ pattern) (present : pattern ≠ []) (text : Bytes) :
    splitFirst pattern (c :: text) =
      (splitFirst pattern text).map fun parts => (c :: parts.1, parts.2) := by
  have cut := splitFirst_separated absent present [] text
  simpa [splitFirst, present] using cut

theorem splitFirst_self (present : pattern ≠ []) (back : Bytes) :
    splitFirst pattern (pattern ++ back) = some ([], back) := by
  cases pattern with
  | nil => exact absurd rfl present
  | cons letter pattern =>
      rw [List.cons_append, splitFirst, if_pos (by simp [List.isPrefixOf_iff_prefix])]
      simp

end Splitting

section Quoted

variable {pattern : Bytes}

theorem flatMap_quoteByte_of_plain (slashed : backslash ∉ pattern) (quoted : doubleQuote ∉ pattern) :
    pattern.flatMap quoteByte = pattern := by
  induction pattern with
  | nil => rfl
  | cons c pattern ih =>
      simp only [List.mem_cons, not_or] at slashed quoted
      rw [List.flatMap_cons, ih slashed.2 quoted.2, quoteByte,
        if_neg (by simp [Ne.symm slashed.1, Ne.symm quoted.1])]
      rfl

theorem isPrefixOf_quoteBytes (slashed : backslash ∉ pattern) (quoted : doubleQuote ∉ pattern)
    (text : Bytes) : pattern.isPrefixOf (text.flatMap quoteByte) = pattern.isPrefixOf text := by
  induction pattern generalizing text with
  | nil => simp
  | cons letter pattern ih =>
      simp only [List.mem_cons, not_or] at slashed quoted
      cases text with
      | nil => rfl
      | cons c text =>
          rw [List.flatMap_cons, quoteByte]
          split
          · rename_i special
            have slashFirst : (letter == backslash) = false := by simpa using Ne.symm slashed.1
            have byteFirst : (letter == c) = false := by
              rcases special with rfl | rfl
              · exact slashFirst
              · simpa using Ne.symm quoted.1
            simp [List.isPrefixOf, slashFirst, byteFirst]
          · simp [List.isPrefixOf, ih slashed.2 quoted.2]

/-- In quoted text the pattern is found where it is found in the argument. -/
theorem splitFirst_quoteBytes (slashed : backslash ∉ pattern) (quoted : doubleQuote ∉ pattern)
    (present : pattern ≠ []) (text : Bytes) :
    splitFirst pattern (text.flatMap quoteByte) =
      (splitFirst pattern text).map fun parts => (parts.1.flatMap quoteByte, parts.2.flatMap quoteByte) := by
  induction text with
  | nil => simp [splitFirst, present]
  | cons c text ih =>
      by_cases special : c = backslash ∨ c = doubleQuote
      · have absent : c ∉ pattern := by
          rcases special with rfl | rfl
          · exact slashed
          · exact quoted
        have units : quoteByte c = [backslash, c] := by rw [quoteByte, if_pos special]
        rw [List.flatMap_cons, units, List.cons_append, List.singleton_append,
          splitFirst_cons_absent slashed present, splitFirst_cons_absent absent present, ih,
          splitFirst_cons_absent absent present]
        simp [Function.comp_def, units]
      · have units : quoteByte c = [c] := by rw [quoteByte, if_neg special]
        have leads := isPrefixOf_quoteBytes slashed quoted (c :: text)
        rw [List.flatMap_cons, units, List.singleton_append] at leads ⊢
        rw [splitFirst, splitFirst, leads]
        split
        · rename_i fits
          obtain ⟨behind, whole⟩ := List.isPrefixOf_iff_prefix.mp fits
          have encoded : c :: text.flatMap quoteByte = pattern ++ behind.flatMap quoteByte := by
            have both := congrArg (fun bytes => bytes.flatMap quoteByte) whole
            simp only [List.flatMap_append, flatMap_quoteByte_of_plain slashed quoted, List.flatMap_cons,
              units, List.singleton_append] at both
            exact both.symm
          rw [encoded, ← whole]
          simp
        · rw [ih]
          simp [Function.comp_def, units]

end Quoted

theorem placeholder_plain : remoteUploadPathPlaceholder.any isSpecial = false := by decide

theorem placeholder_bare : needsQuotes remoteUploadPathPlaceholder = false := by decide

theorem placeholder_present : remoteUploadPathPlaceholder ≠ [] := by decide

theorem special_not_mem_placeholder {c : UInt8} (special : isSpecial c = true) :
    c ∉ remoteUploadPathPlaceholder := by
  intro member
  exact (List.any_eq_false.mp placeholder_plain) c member special

namespace Piece

/-- An argument in which the path of the upload replaced the placeholder. -/
def inserted (argument path : Bytes) (parts : Bytes × Bytes) : Piece :=
  if needsQuotes argument then
    { text := doubleQuote ::
        (parts.1.flatMap quoteByte ++ path ++ (parts.2.flatMap quoteByte ++ [doubleQuote]))
      value := parts.1 ++ path ++ parts.2
      intact := !path.any fun c => c == backslash || c == doubleQuote }
  else raw (parts.1 ++ path ++ parts.2)

theorem inserted_value (argument path : Bytes) (parts : Bytes × Bytes) :
    (inserted argument path parts).value = parts.1 ++ path ++ parts.2 := by
  simp only [inserted]
  split <;> rfl

end Piece

/-- The placeholder is replaced in the first argument that holds it. -/
theorem splitFirst_quoteArgument (argument : Bytes) :
    splitFirst remoteUploadPathPlaceholder (quoteArgument argument) =
      (splitFirst remoteUploadPathPlaceholder argument).map fun parts =>
        if needsQuotes argument then
          (doubleQuote :: parts.1.flatMap quoteByte, parts.2.flatMap quoteByte ++ [doubleQuote])
        else parts := by
  have slashed := special_not_mem_placeholder (show isSpecial backslash = true by decide)
  have quoted := special_not_mem_placeholder (show isSpecial doubleQuote = true by decide)
  rw [quoteArgument]
  split
  · rename_i quotes
    rw [splitFirst_cons_absent quoted placeholder_present,
      splitFirst_separated quoted placeholder_present (argument.flatMap quoteByte) [],
      splitFirst_quoteBytes slashed quoted placeholder_present]
    cases splitFirst remoteUploadPathPlaceholder argument with
    | none => simp [splitFirst, placeholder_present]
    | some parts => simp
  · simp

theorem substitute_joinArguments {front back : List Bytes} {argument path : Bytes} {parts : Bytes × Bytes}
    (clear : ∀ earlier ∈ front, splitFirst remoteUploadPathPlaceholder earlier = none)
    (found : splitFirst remoteUploadPathPlaceholder argument = some parts) :
    substituteUploadPath (joinArguments (front ++ argument :: back)) path =
      some (Piece.joinTexts (front.map Piece.argument ++
        Piece.inserted argument path parts :: back.map Piece.argument)) := by
  have blank := special_not_mem_placeholder (show isSpecial space = true by decide)
  induction front with
  | nil =>
      have inside := splitFirst_quoteArgument argument
      rw [found, Option.map_some] at inside
      cases back with
      | nil =>
          simp only [List.nil_append, List.map_nil, Piece.joinTexts_singleton, substituteUploadPath,
            joinArguments, List.map_cons, List.intercalate_singleton, inside, Option.map_some,
            Option.some.injEq, Piece.inserted]
          split <;> simp [Piece.raw]
      | cons next rest =>
          rw [List.nil_append, List.map_nil, List.nil_append, List.map_cons, Piece.joinTexts_cons_cons,
            ← List.map_cons, Piece.joinTexts_arguments, substituteUploadPath, joinArguments, List.map_cons,
            List.map_cons, List.intercalate_cons_cons, List.append_assoc, List.singleton_append,
            splitFirst_separated blank placeholder_present, inside]
          simp only [Option.map_some, Option.some.injEq, Piece.inserted, joinArguments, List.map_cons]
          split <;> simp [Piece.raw]
  | cons first front ih =>
      have before : splitFirst remoteUploadPathPlaceholder (quoteArgument first) = none := by
        rw [splitFirst_quoteArgument, clear first List.mem_cons_self, Option.map_none]
      have rest := ih fun earlier member => clear earlier (List.mem_cons_of_mem _ member)
      have nonempty : front ++ argument :: back ≠ [] := by simp
      obtain ⟨next, others, tail⟩ := List.exists_cons_of_ne_nil nonempty
      have joined : joinArguments (first :: (front ++ argument :: back)) =
          quoteArgument first ++ space :: joinArguments (front ++ argument :: back) := by
        rw [tail]
        simp [joinArguments, List.intercalate_cons_cons]
      have pieces : front.map Piece.argument ++ Piece.inserted argument path parts :: back.map Piece.argument ≠ [] := by
        simp
      obtain ⟨nextPiece, otherPieces, tailPieces⟩ := List.exists_cons_of_ne_nil pieces
      rw [List.cons_append, joined, substituteUploadPath, splitFirst_separated blank placeholder_present, before]
      simp only [List.map_cons, List.cons_append]
      rw [tailPieces, Piece.joinTexts_cons_cons, ← tailPieces]
      simp only [substituteUploadPath, Option.map_eq_some_iff] at rest ⊢
      obtain ⟨cut, inner, whole⟩ := rest
      refine ⟨(quoteArgument first ++ space :: cut.1, cut.2), ⟨cut, inner, rfl⟩, ?_⟩
      rw [← whole]
      simp [Piece.argument]

namespace Tokenizer

variable {state : Tokenizer} {c : UInt8}

theorem step_settles (ordinary : c ≠ backslash) : (state.step c).escaping = false := by
  cases pending : state.escaping with
  | true => rw [step_escaping pending]
  | false =>
      simp only [step, pending, beq_iff_eq, ordinary, false_and, Bool.false_eq_true, if_false,
        Bool.and_eq_true]
      split
      · rfl
      · split
        · rfl
        · split
          · simp [pending]
          · rfl

/-- Text that does not end in a backslash leaves none pending. -/
theorem run_settles {text : Bytes} (settled : state.escaping = false)
    (ordinary : text.getLast? ≠ some backslash) : (state.run text).escaping = false := by
  cases reversed : text.reverse with
  | nil => simpa [List.reverse_eq_nil_iff.mp reversed] using settled
  | cons last rest =>
      have whole : text = rest.reverse ++ [last] := by
        rw [← List.reverse_reverse text, reversed, List.reverse_cons]
      rw [whole, run_append, run_cons, run_nil]
      apply step_settles
      intro same
      rw [whole, same] at ordinary
      simp at ordinary

/-- In double quotes a backslash or a quotation mark is lost. -/
theorem run_weight_lt_inDouble {text : Bytes} (quoted : state.InDouble)
    (special : (text.any fun c => c == backslash || c == doubleQuote) = true) :
    (state.run text).weight < state.weight + 2 * text.length := by
  induction text generalizing state with
  | nil => simp at special
  | cons c text ih =>
      simp only [run_cons, List.length_cons]
      by_cases damaged : c = backslash ∨ c = doubleQuote
      · have first : (state.step c).weight ≤ state.weight + 1 := by
          rcases damaged with rfl | rfl
          · simp [step, quoted.settled, quoted.single, weight]
          · rw [step_closing quoted]
            simp [weight]
        have rest := @run_weight_le (state.step c) text
        omega
      · simp only [not_or] at damaged
        have next := step_inDouble quoted damaged.1 damaged.2
        have rest := @ih (state.step c) (by rw [next]; exact ⟨quoted.single, quoted.double, quoted.settled⟩)
          (by simpa [damaged] using special)
        have first := @step_weight_le state c
        omega

theorem run_plain_inDouble {text : Bytes} (quoted : state.InDouble)
    (plain : (text.any fun c => c == backslash || c == doubleQuote) = false) :
    state.run text = { state with current := state.current ++ text } := by
  induction text generalizing state with
  | nil => simp
  | cons c text ih =>
      simp only [List.any_cons, Bool.or_eq_false_iff, beq_eq_false_iff_ne] at plain
      rw [run_cons, step_inDouble quoted plain.1.1 plain.1.2,
        @ih { state with current := state.current ++ [c] } ⟨quoted.single, quoted.double, quoted.settled⟩
          (by simpa using plain.2)]
      simp

end Tokenizer

/-- A path in a quoted argument that does not end in a backslash. -/
theorem Piece.inserted_measured {path : Bytes} (ordinary : path.getLast? ≠ some backslash) (argument : Bytes)
    (parts : Bytes × Bytes) : (Piece.inserted argument path parts).Measured := by
  cases quotes : needsQuotes argument with
  | false =>
      simp only [inserted, quotes, Bool.false_eq_true, if_false]
      exact raw_measured _
  | true =>
      have shape : inserted argument path parts =
          { text := doubleQuote ::
              (parts.1.flatMap quoteByte ++ path ++ (parts.2.flatMap quoteByte ++ [doubleQuote]))
            value := parts.1 ++ path ++ parts.2
            intact := !path.any fun c => c == backslash || c == doubleQuote } := by
        rw [inserted, if_pos quotes]
      -- the state in front of the path, and what closing the quotation adds behind it
      have opened {state : Tokenizer} (ready : state.Ready) :
          state.run (inserted argument path parts).text =
            (({ state with inDoubleQuotes := true, current := state.current ++ parts.1 } : Tokenizer).run
              path).run (parts.2.flatMap quoteByte ++ [doubleQuote]) := by
        have entered : ({ state with inDoubleQuotes := true } : Tokenizer).InDouble := ⟨ready.1.1, rfl, ready.2⟩
        rw [shape, Tokenizer.run_cons, Tokenizer.step_opening ready, Tokenizer.run_append _ (_ ++ [_]),
          Tokenizer.run_append _ path, Tokenizer.run_quoteBytes entered]
      have closed {state : Tokenizer} (quoted : state.InDouble) :
          state.run (parts.2.flatMap quoteByte ++ [doubleQuote]) =
            { state with inDoubleQuotes := false, current := state.current ++ parts.2 } := by
        have passed : ({ state with current := state.current ++ parts.2 } : Tokenizer).InDouble :=
          ⟨quoted.single, quoted.double, quoted.settled⟩
        rw [Tokenizer.run_append, Tokenizer.run_quoteBytes quoted, Tokenizer.run_cons,
          Tokenizer.step_closing passed, Tokenizer.run_nil]
      constructor
      · intro state ready outside
        rw [opened ready] at outside ⊢
        set inner : Tokenizer := { state with inDoubleQuotes := true, current := state.current ++ parts.1 }
          with innerState
        have entered : inner.InDouble := ⟨ready.1.1, rfl, ready.2⟩
        have settled : (inner.run path).escaping = false := Tokenizer.run_settles entered.settled ordinary
        have quoted : (inner.run path).InDouble := by
          by_contra elsewhere
          exact Tokenizer.run_quoteBytes_end settled elsewhere outside
        have before : inner.weight = state.weight + 2 * parts.1.length := by
          simp only [innerState, Tokenizer.weight, List.length_append]
          omega
        have behind : ((inner.run path).run (parts.2.flatMap quoteByte ++ [doubleQuote])).weight =
            (inner.run path).weight + 2 * parts.2.length := by
          rw [closed quoted]
          simp only [Tokenizer.weight, List.length_append]
          omega
        rw [behind, shape]
        simp only [List.length_append]
        by_cases special : (path.any fun c => c == backslash || c == doubleQuote) = true
        · have lost := Tokenizer.run_weight_lt_inDouble entered special
          split <;> omega
        · have bound := @Tokenizer.run_weight_le inner path
          rw [if_pos (by simp [Bool.eq_false_iff.mpr special])]
          omega
      · intro intact state ready
        have plain : (path.any fun c => c == backslash || c == doubleQuote) = false := by
          rw [shape] at intact
          simpa using intact
        have entered : ({ state with inDoubleQuotes := true, current := state.current ++ parts.1 } :
            Tokenizer).InDouble := ⟨ready.1.1, rfl, ready.2⟩
        have passed : ({ state with inDoubleQuotes := true, current := state.current ++ parts.1 ++ path } :
            Tokenizer).InDouble := ⟨ready.1.1, rfl, ready.2⟩
        rw [opened ready, Tokenizer.run_plain_inDouble entered plain, closed passed, shape]
        simp [ready.1.2]

end ReqPack.Remote
