import ReqPack.PluginHost.CommandOutput

/-! # Where the output may be cut

A terminal's output is normalized chunk by chunk.  The lines stay the same wherever it is
cut if each piece that can be read is normalized as its bytes are one by one.
-/

namespace ReqPack.PluginHost

open ReqPack.Data
open ReqPack.Data.Ascii

/-- What a byte is normalized to in a chunk of its own. -/
def normalizeByte (c : UInt8) : Bytes :=
  if c = carriageReturn then [newline]
  else if c = escapeByte ∨ c = backspace ∨ (c < 32 ∧ c ≠ newline ∧ c ≠ tab) then []
  else [c]

def normalizeBytes (stream : Bytes) : Bytes := stream.flatMap normalizeByte

/-- There is text behind the last newline. -/
def Unfinished (transcript : Bytes) : Prop := ∃ front c, transcript = front ++ [c] ∧ c ≠ newline

/-- Each piece that one read may return is normalized as its bytes are; only the newline
that ends all of the output may be lost. -/
def Seamless (stream : Bytes) : Prop :=
  ∀ front piece back, stream = front ++ piece ++ back → piece ≠ [] → piece.length ≤ readLimit →
    normalizeExecRulePtyChunk piece = normalizeBytes piece ∨
      (normalizeBytes back = [] ∧ normalizeBytes piece = normalizeExecRulePtyChunk piece ++ [newline] ∧
        Unfinished (normalizeBytes front ++ normalizeExecRulePtyChunk piece))

/-! ## Bytes one by one -/

section Bytes

theorem normalizeBytes_append (front back : Bytes) :
    normalizeBytes (front ++ back) = normalizeBytes front ++ normalizeBytes back := List.flatMap_append

theorem normalize_singleton (c : UInt8) : normalizeExecRulePtyChunk [c] = normalizeByte c := by
  have done : ∀ normalized, normalizeFrom normalized [] = normalized.reverse := fun normalized => by rw [normalizeFrom]
  rw [normalizeExecRulePtyChunk, normalizeFrom, normalizeByte]
  by_cases escape : c = escapeByte
  · subst escape
    exact done []
  · by_cases isReturn : c = carriageReturn
    · subst isReturn
      exact done [newline]
    · rw [if_neg escape, if_neg isReturn, if_neg isReturn]
      by_cases back : c = backspace
      · rw [if_pos back, if_pos (Or.inr (Or.inl back))]
        exact done []
      · rw [if_neg back]
        by_cases control : c < 32 ∧ c ≠ newline ∧ c ≠ tab
        · rw [if_pos control, if_pos (Or.inr (Or.inr control))]
          exact done []
        · rw [if_neg control, if_neg]
          · exact done [c]
          · rintro (same | same | same)
            · exact escape same
            · exact back same
            · exact control same

theorem normalize_singletons (stream : Bytes) :
    (stream.map fun c => [c]).flatMap normalizeExecRulePtyChunk = normalizeBytes stream := by
  induction stream with
  | nil => rfl
  | cons c stream ih =>
      rw [List.map_cons, List.flatMap_cons, ih, normalize_singleton]
      rfl

theorem normalizeBytes_skip {chunk rest : Bytes} (suffix : rest <:+ chunk) :
    (normalizeBytes rest).length ≤ (normalizeBytes chunk).length := by
  obtain ⟨front, rfl⟩ := suffix
  rw [normalizeBytes_append, List.length_append]
  omega

theorem skipControlSequence_suffix (chunk : Bytes) : skipControlSequence chunk <:+ chunk := by
  induction chunk with
  | nil => exact List.suffix_refl _
  | cons c rest ih =>
      rw [skipControlSequence]
      split
      · exact List.suffix_cons c rest
      · exact ih.trans (List.suffix_cons c rest)

theorem skipSystemCommand_suffix (chunk : Bytes) : skipSystemCommand chunk <:+ chunk := by
  induction chunk with
  | nil => exact List.suffix_refl _
  | cons c rest ih =>
      rw [skipSystemCommand]
      split
      · exact List.suffix_cons c rest
      · split
        · exact (List.tail_suffix rest).trans (List.suffix_cons c rest)
        · exact ih.trans (List.suffix_cons c rest)

theorem skipEscape_suffix (rest : Bytes) : skipEscape rest <:+ rest := by
  rw [skipEscape]
  split
  · exact (skipControlSequence_suffix _).trans (List.tail_suffix rest)
  · split
    · exact (skipSystemCommand_suffix _).trans (List.tail_suffix rest)
    · exact List.tail_suffix rest

theorem skipNewline_suffix (rest : Bytes) : skipNewline rest <:+ rest := by
  rw [skipNewline]
  split
  · exact List.tail_suffix rest
  · exact List.suffix_refl _

theorem normalizeBytes_cons (c : UInt8) (rest : Bytes) :
    (normalizeBytes (c :: rest)).length = (normalizeByte c).length + (normalizeBytes rest).length := by
  rw [normalizeBytes, List.flatMap_cons, List.length_append, normalizeBytes]

/-- In one chunk nothing is added to what the bytes give one by one. -/
theorem normalizeFrom_length (normalized chunk : Bytes) :
    (normalizeFrom normalized chunk).length ≤ normalized.length + (normalizeBytes chunk).length := by
  fun_induction normalizeFrom normalized chunk with
  | case1 normalized =>
      rw [List.length_reverse]
      omega
  | case2 normalized rest ih =>
      have skipped := normalizeBytes_skip (skipEscape_suffix rest)
      rw [normalizeBytes_cons]
      omega
  | case3 normalized rest plain ih =>
      have skipped := normalizeBytes_skip (skipNewline_suffix rest)
      have shown : (normalizeByte carriageReturn).length = 1 := rfl
      rw [List.length_cons] at ih
      rw [normalizeBytes_cons]
      omega
  | case4 normalized rest plain inside ih =>
      rw [List.length_tail] at ih
      rw [normalizeBytes_cons]
      omega
  | case5 normalized c rest plain inside shown control ih =>
      rw [normalizeBytes_cons]
      omega
  | case6 normalized c rest plain inside shown printed ih =>
      have kept : (normalizeByte c).length = 1 := by
        rw [normalizeByte, if_neg inside, if_neg]
        · rfl
        · rintro (escape | back | control)
          · exact plain escape
          · exact shown back
          · exact printed control
      rw [List.length_cons] at ih
      rw [normalizeBytes_cons]
      omega

theorem normalize_length (chunk : Bytes) :
    (normalizeExecRulePtyChunk chunk).length ≤ (normalizeBytes chunk).length := by
  have bound := normalizeFrom_length [] chunk
  rwa [List.length_nil, Nat.zero_add] at bound

end Bytes

/-! ## Lines of two transcripts -/

section Lines

theorem pieces_ne_nil {transcript : Bytes} (some : transcript ≠ []) : pieces newline transcript ≠ [] := by
  cases transcript with
  | nil => exact absurd rfl some
  | cons c rest =>
      rw [pieces]
      split
      · exact List.cons_ne_nil _ _
      · split <;> exact List.cons_ne_nil _ _

theorem pieces_cons_plain {c : UInt8} (plain : c ≠ newline) (rest : Bytes) :
    pieces newline (c :: rest) = (c :: (pieces newline rest).headD []) :: (pieces newline rest).tail := by
  rw [pieces, if_neg plain]
  cases pieces newline rest with
  | nil => rfl
  | cons first others => rfl

theorem Unfinished.cons {transcript : Bytes} (unfinished : Unfinished transcript) (c : UInt8) :
    Unfinished (c :: transcript) := by
  obtain ⟨front, last, rfl, plain⟩ := unfinished
  exact ⟨c :: front, last, rfl, plain⟩

/-- A newline behind an unfinished line makes no other lines. -/
theorem pieces_finish {transcript : Bytes} (unfinished : Unfinished transcript) :
    pieces newline (transcript ++ [newline]) = pieces newline transcript := by
  obtain ⟨front, last, rfl, plain⟩ := unfinished
  induction front with
  | nil => simp [pieces, plain]
  | cons c front ih =>
      rw [List.cons_append, List.cons_append, pieces, pieces, ih]

theorem pieces_eq_empty_line {transcript : Bytes} (alone : pieces newline transcript = [[]]) : transcript = [newline] := by
  cases transcript with
  | nil => cases alone
  | cons c rest =>
      by_cases ends : c = newline
      · rw [pieces, if_pos ends] at alone
        have nothing : rest = [] := by
          by_contra more
          exact pieces_ne_nil more (List.cons.inj alone).2
        rw [ends, nothing]
      · rw [pieces_cons_plain ends] at alone
        cases (List.cons.inj alone).1

theorem pieces_headTail {left right : Bytes}
    (heads : (pieces newline left).headD [] = (pieces newline right).headD [])
    (tails : (pieces newline left).tail = (pieces newline right).tail) :
    pieces newline left = pieces newline right ∨ (left = [] ∧ right = [newline]) ∨ (left = [newline] ∧ right = []) := by
  cases leftPieces : pieces newline left with
  | nil =>
      have empty : left = [] := by
        by_contra more
        exact pieces_ne_nil more leftPieces
      cases rightPieces : pieces newline right with
      | nil => exact Or.inl rfl
      | cons first others =>
          rw [leftPieces, rightPieces] at heads tails
          obtain rfl : [] = first := heads
          obtain rfl : [] = others := tails
          exact Or.inr (Or.inl ⟨empty, pieces_eq_empty_line rightPieces⟩)
  | cons head tail =>
      cases rightPieces : pieces newline right with
      | nil =>
          have empty : right = [] := by
            by_contra more
            exact pieces_ne_nil more rightPieces
          rw [leftPieces, rightPieces] at heads tails
          obtain rfl : head = [] := heads
          obtain rfl : tail = [] := tails
          exact Or.inr (Or.inr ⟨pieces_eq_empty_line leftPieces, empty⟩)
      | cons first others =>
          rw [leftPieces, rightPieces] at heads tails
          obtain rfl : head = first := heads
          obtain rfl : tail = others := tails
          exact Or.inl rfl

/-- Transcripts with the same lines are the same, but for a newline at the end. -/
theorem pieces_injective {left right : Bytes} (same : pieces newline left = pieces newline right) :
    left = right ∨ (right = left ++ [newline] ∧ Unfinished left) ∨ (left = right ++ [newline] ∧ Unfinished right) := by
  induction left generalizing right with
  | nil =>
      cases right with
      | nil => exact Or.inl rfl
      | cons c right => exact absurd same.symm (pieces_ne_nil (List.cons_ne_nil c right))
  | cons c left ih =>
      cases right with
      | nil => exact absurd same (pieces_ne_nil (List.cons_ne_nil c left))
      | cons d right =>
          have extend : ∀ {first second : Bytes}, (first = second ∨ (second = first ++ [newline] ∧ Unfinished first) ∨
              (first = second ++ [newline] ∧ Unfinished second)) → c :: first = c :: second ∨
              (c :: second = c :: first ++ [newline] ∧ Unfinished (c :: first)) ∨
              (c :: first = c :: second ++ [newline] ∧ Unfinished (c :: second)) := by
            rintro first second (rfl | ⟨rfl, unfinished⟩ | ⟨rfl, unfinished⟩)
            · exact Or.inl rfl
            · exact Or.inr (Or.inl ⟨rfl, unfinished.cons c⟩)
            · exact Or.inr (Or.inr ⟨rfl, unfinished.cons c⟩)
          by_cases leftEnds : c = newline
          · by_cases rightEnds : d = newline
            · subst leftEnds rightEnds
              rw [pieces, pieces, if_pos rfl, if_pos rfl] at same
              exact extend (ih (List.cons.inj same).2)
            · rw [pieces, if_pos leftEnds, pieces_cons_plain rightEnds] at same
              cases (List.cons.inj same).1
          · by_cases rightEnds : d = newline
            · rw [pieces_cons_plain leftEnds, pieces, if_pos rightEnds] at same
              cases (List.cons.inj same).1
            · rw [pieces_cons_plain leftEnds, pieces_cons_plain rightEnds] at same
              obtain ⟨heads, tails⟩ := List.cons.inj same
              obtain ⟨rfl, firsts⟩ := List.cons.inj heads
              rcases pieces_headTail firsts tails with equal | ⟨none, lone⟩ | ⟨lone, none⟩
              · exact extend (ih equal)
              · rw [none, lone]
                exact Or.inr (Or.inl ⟨rfl, [], c, rfl, leftEnds⟩)
              · rw [none, lone]
                exact Or.inr (Or.inr ⟨rfl, [], c, rfl, leftEnds⟩)

end Lines

/-! ## The cuts of a stream -/

section Cutting

variable {stream front piece back : Bytes}

theorem cuts_singletons (stream : Bytes) : Cuts stream (stream.map fun c => [c]) where
  whole := by
    induction stream with
    | nil => rfl
    | cons c stream ih => rw [List.map_cons, List.flatten_cons, ih, List.singleton_append]
  sizes chunk member := by
    obtain ⟨c, -, rfl⟩ := List.mem_map.mp member
    exact ⟨List.cons_ne_nil _ _, by rw [List.length_singleton, readLimit]; omega⟩

/-- Everything byte by byte, but one piece at once. -/
theorem cuts_piece (filled : piece ≠ []) (fits : piece.length ≤ readLimit) :
    Cuts (front ++ piece ++ back) ((front.map fun c => [c]) ++ piece :: back.map fun c => [c]) where
  whole := by
    rw [List.flatten_append, List.flatten_cons, (cuts_singletons front).whole, (cuts_singletons back).whole,
      List.append_assoc]
  sizes chunk member := by
    rcases List.mem_append.mp member with before | here
    · exact (cuts_singletons front).sizes chunk before
    · rcases List.mem_cons.mp here with rfl | behind
      · exact ⟨filled, fits⟩
      · exact (cuts_singletons back).sizes chunk behind

theorem normalize_piece (front piece back : Bytes) :
    ((front.map fun c => [c]) ++ piece :: back.map fun c => [c]).flatMap normalizeExecRulePtyChunk =
      normalizeBytes front ++ normalizeExecRulePtyChunk piece ++ normalizeBytes back := by
  rw [List.flatMap_append, List.flatMap_cons, normalize_singletons, normalize_singletons, List.append_assoc]

/-- A piece that gives other lines at once than byte by byte has lost the last newline. -/
theorem seamless_of_same (same : pieces newline (normalizeBytes front ++ normalizeExecRulePtyChunk piece ++ normalizeBytes back) =
      pieces newline (normalizeBytes front ++ normalizeBytes piece ++ normalizeBytes back)) :
    normalizeExecRulePtyChunk piece = normalizeBytes piece ∨
      (normalizeBytes back = [] ∧ normalizeBytes piece = normalizeExecRulePtyChunk piece ++ [newline] ∧
        Unfinished (normalizeBytes front ++ normalizeExecRulePtyChunk piece)) := by
  rcases pieces_injective same with equal | ⟨longer, unfinished⟩ | ⟨shorter, -⟩
  · left
    rw [List.append_assoc, List.append_assoc] at equal
    exact List.append_cancel_right (List.append_cancel_left equal)
  · right
    rcases List.eq_nil_or_concat' (normalizeBytes back) with none | ⟨inside, last, ends⟩
    · rw [none, List.append_nil, List.append_nil, List.append_assoc] at longer
      rw [none, List.append_nil] at unfinished
      exact ⟨none, List.append_cancel_left longer, unfinished⟩
    · rw [ends, ← List.append_assoc, ← List.append_assoc] at longer
      have final : last = newline := by
        have lasts := congrArg List.getLast? longer
        simpa using lasts
      obtain ⟨text, c, split, plain⟩ := unfinished
      rw [ends, ← List.append_assoc] at split
      have lasts := congrArg List.getLast? split
      rw [List.getLast?_concat, List.getLast?_concat, Option.some.injEq] at lasts
      exact absurd (lasts.symm.trans final) plain
  · have lengths := congrArg List.length shorter
    have bound := normalize_length piece
    simp only [List.length_append, List.length_singleton] at lengths
    omega

/-- A seamless stream has the same lines however its rest is cut. -/
theorem pieces_of_seamless (seamless : Seamless stream) {chunks : List Bytes} (whole : stream = front ++ chunks.flatten)
    (sizes : ∀ chunk ∈ chunks, chunk ≠ [] ∧ chunk.length ≤ readLimit) :
    pieces newline (normalizeBytes front ++ chunks.flatMap normalizeExecRulePtyChunk) =
      pieces newline (normalizeBytes stream) := by
  induction chunks generalizing front with
  | nil => rw [whole, List.flatten_nil, List.flatMap_nil, List.append_nil, List.append_nil]
  | cons chunk chunks ih =>
      obtain ⟨filled, fits⟩ := sizes chunk List.mem_cons_self
      have placed : stream = front ++ chunk ++ chunks.flatten := by
        rw [whole, List.flatten_cons, List.append_assoc]
      rw [List.flatMap_cons]
      rcases seamless front chunk chunks.flatten placed filled fits with same | ⟨none, lost, unfinished⟩
      · rw [same, ← List.append_assoc, ← normalizeBytes_append]
        exact ih placed fun later member => sizes later (List.mem_cons_of_mem _ member)
      · have nothing : chunks.flatMap normalizeExecRulePtyChunk = [] := by
          apply List.flatMap_eq_nil_iff.mpr
          intro later member
          have within : (normalizeBytes later).length ≤ (normalizeBytes chunks.flatten).length := by
            obtain ⟨before, after, split⟩ := List.append_of_mem member
            rw [split, List.flatten_append, List.flatten_cons, normalizeBytes_append, normalizeBytes_append,
              List.length_append, List.length_append]
            omega
          have bound := normalize_length later
          rw [none, List.length_nil] at within
          exact List.length_eq_zero_iff.mp (by omega)
        rw [nothing, List.append_nil, placed, normalizeBytes_append, normalizeBytes_append, none, List.append_nil, lost,
          ← List.append_assoc, pieces_finish unfinished]

end Cutting

/-- The lines of plain output are the same however it is read.  Those of a terminal, and
with them the actions of the rules that watch lines, are so exactly when no cut can fall
into what is normalized together. -/
theorem same_lines_iff_seamless (stream : Bytes) :
    (SameForAllCuts ptyInputs stream ∧ SameForAllCuts lineInputs stream) ↔ Seamless stream := by
  constructor
  · rintro ⟨same, -⟩ front piece back rfl filled fits
    apply seamless_of_same
    have lines := (same _ _ (cuts_piece filled fits) (cuts_singletons (front ++ piece ++ back))).1
    rw [lines_ptyInputs, lines_ptyInputs, normalize_piece, normalize_singletons, normalizeBytes_append,
      normalizeBytes_append] at lines
    exact lines
  · intro seamless
    have each : ∀ chunks, Cuts stream chunks →
        inputLines (ptyInputs chunks) = pieces newline (normalizeBytes stream) := by
      intro chunks cuts
      have lines := @pieces_of_seamless stream [] seamless chunks cuts.whole.symm cuts.sizes
      rw [lines_ptyInputs]
      exact lines
    refine ⟨fun chunks others cuts cutsOther => ?_, fun chunks others cuts cutsOther => ?_⟩
    · have same := (each chunks cuts).trans (each others cutsOther).symm
      exact ⟨same, fun oracle ruleset lines => runActions_congr lines same⟩
    · have same : inputLines (lineInputs chunks) = inputLines (lineInputs others) := by
        rw [lines_lineInputs, lines_lineInputs, cuts.whole, cutsOther.whole]
      exact ⟨same, fun oracle ruleset lines => runActions_congr lines same⟩

/-! ### Carriage returns -/

theorem normalize_lineEnd : normalizeExecRulePtyChunk [carriageReturn, newline] = [newline] := by
  have done : normalizeFrom [newline] [] = [newline] := by rw [normalizeFrom, List.reverse_singleton]
  rw [normalizeExecRulePtyChunk, normalizeFrom, if_neg (by decide), if_pos rfl]
  exact done

/-- A line end of a terminal can always be cut in two. -/
theorem lineEnd_not_seamless (front back : Bytes) : ¬Seamless (front ++ [carriageReturn, newline] ++ back) := by
  intro seamless
  have bytewise : normalizeBytes [carriageReturn, newline] = [newline, newline] := by decide
  rcases seamless front _ back rfl (List.cons_ne_nil _ _) (by decide) with same | ⟨-, -, unfinished⟩
  · rw [normalize_lineEnd, bytewise] at same
    cases same
  · rw [normalize_lineEnd] at unfinished
    obtain ⟨text, c, split, plain⟩ := unfinished
    have lasts := congrArg List.getLast? split
    rw [List.getLast?_concat, List.getLast?_concat, Option.some.injEq] at lasts
    exact plain lasts.symm

theorem normalizeFrom_plain {chunk : Bytes} (plain : ∀ c ∈ chunk, c ≠ escapeByte ∧ c ≠ carriageReturn ∧ c ≠ backspace)
    (normalized : Bytes) : normalizeFrom normalized chunk = normalized.reverse ++ normalizeBytes chunk := by
  induction chunk generalizing normalized with
  | nil =>
      rw [normalizeFrom]
      exact (List.append_nil _).symm
  | cons c rest ih =>
      obtain ⟨escape, isReturn, back⟩ := plain c List.mem_cons_self
      have later := ih fun other member => plain other (List.mem_cons_of_mem _ member)
      rw [normalizeFrom, if_neg escape, if_neg isReturn, if_neg back, normalizeBytes, List.flatMap_cons, normalizeByte,
        if_neg isReturn]
      by_cases control : c < 32 ∧ c ≠ newline ∧ c ≠ tab
      · rw [if_pos control, if_pos (Or.inr (Or.inr control)), later, List.nil_append]
        rfl
      · rw [if_neg control, if_neg, later, List.reverse_cons, List.append_assoc]
        · rfl
        · rintro (same | same | same)
          · exact escape same
          · exact back same
          · exact control same

/-- Output without escapes, carriage returns and backspaces may be cut anywhere. -/
theorem plain_seamless {stream : Bytes} (plain : ∀ c ∈ stream, c ≠ escapeByte ∧ c ≠ carriageReturn ∧ c ≠ backspace) :
    Seamless stream := by
  rintro front piece back rfl - -
  left
  rw [normalizeExecRulePtyChunk, normalizeFrom_plain, List.reverse_nil, List.nil_append]
  exact fun c member => plain c (List.mem_append_left _ (List.mem_append_right _ member))

/-- Two lines, read at once and with a cut inside the line end. -/
theorem cut_lineEnd_adds_line :
    inputLines (ptyInputs [[97, carriageReturn, newline, 98]]) = [[97], [98]] ∧
      inputLines (ptyInputs [[97, carriageReturn], [newline, 98]]) = [[97], [], [98]] ∧
      ¬(SameForAllCuts ptyInputs [97, carriageReturn, newline, 98] ∧
        SameForAllCuts lineInputs [97, carriageReturn, newline, 98]) := by
  have whole : inputLines (ptyInputs [[97, carriageReturn, newline, 98]]) = [[97], [98]] := by
    simp [lines_ptyInputs, normalizeExecRulePtyChunk, normalizeFrom, skipNewline, pieces, escapeByte, carriageReturn, newline,
      backspace, tab]
  have cut : inputLines (ptyInputs [[97, carriageReturn], [newline, 98]]) = [[97], [], [98]] := by
    simp [lines_ptyInputs, normalizeExecRulePtyChunk, normalizeFrom, skipNewline, pieces, escapeByte, carriageReturn, newline,
      backspace, tab]
  refine ⟨whole, cut, fun same => ?_⟩
  have equal := (same.1 [[97, carriageReturn, newline, 98]] [[97, carriageReturn], [newline, 98]]
    ⟨rfl, by simp [readLimit]⟩ ⟨rfl, by simp [readLimit]⟩).1
  rw [whole, cut] at equal
  exact absurd equal (by decide)

end ReqPack.PluginHost
