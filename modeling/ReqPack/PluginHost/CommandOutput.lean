import ReqPack.Data.Text
import ReqPack.PluginHost.ExecRuleRuns

/-! # The output of a command

`run_pty_command` and `run_line_command` read the output in chunks.  A chunk of a terminal
is normalized on its own, and lines are put together across the chunks.
-/

namespace ReqPack.PluginHost

open ReqPack.Data
open ReqPack.Data.Ascii

def escapeByte : UInt8 := 27

def bell : UInt8 := 7

def backspace : UInt8 := 8

def tab : UInt8 := 9

/-- The rest behind the end of a control sequence, which begins with `ESC [`. -/
def skipControlSequence : Bytes → Bytes
  | [] => []
  | c :: rest => if 64 ≤ c ∧ c ≤ 126 then rest else skipControlSequence rest

/-- The same for an operating system command, which begins with `ESC ]`. -/
def skipSystemCommand : Bytes → Bytes
  | [] => []
  | c :: rest =>
      if c = bell then rest
      else if c = escapeByte ∧ rest.head? = some backslash then rest.tail
      else skipSystemCommand rest

theorem skipControlSequence_length (chunk : Bytes) : (skipControlSequence chunk).length ≤ chunk.length := by
  induction chunk with
  | nil => exact Nat.le_refl _
  | cons c rest ih =>
      rw [skipControlSequence, List.length_cons]
      split <;> omega

theorem skipSystemCommand_length (chunk : Bytes) : (skipSystemCommand chunk).length ≤ chunk.length := by
  induction chunk with
  | nil => exact Nat.le_refl _
  | cons c rest ih =>
      rw [skipSystemCommand, List.length_cons]
      split
      · omega
      · split
        · rw [List.length_tail]
          omega
        · omega

/-- What an escape at the start of `rest` takes with it. -/
def skipEscape (rest : Bytes) : Bytes :=
  if rest.head? = some 91 then skipControlSequence rest.tail
  else if rest.head? = some 93 then skipSystemCommand rest.tail
  else rest.tail

theorem skipEscape_length (rest : Bytes) : (skipEscape rest).length ≤ rest.length := by
  have tail : rest.tail.length ≤ rest.length := by
    rw [List.length_tail]
    omega
  rw [skipEscape]
  split
  · exact (skipControlSequence_length _).trans tail
  · split
    · exact (skipSystemCommand_length _).trans tail
    · exact tail

/-- A newline behind a carriage return belongs to it. -/
def skipNewline (rest : Bytes) : Bytes := if rest.head? = some newline then rest.tail else rest

theorem skipNewline_length (rest : Bytes) : (skipNewline rest).length ≤ rest.length := by
  rw [skipNewline]
  split
  · rw [List.length_tail]
    omega
  · exact Nat.le_refl _

/-- The loop of `normalize_exec_rule_pty_chunk`; `normalized` has its last byte first. -/
def normalizeFrom (normalized : Bytes) : Bytes → Bytes
  | [] => normalized.reverse
  | c :: rest =>
      if c = escapeByte then normalizeFrom normalized (skipEscape rest)
      else if c = carriageReturn then normalizeFrom (newline :: normalized) (skipNewline rest)
      else if c = backspace then normalizeFrom normalized.tail rest
      else if c < 32 ∧ c ≠ newline ∧ c ≠ tab then normalizeFrom normalized rest
      else normalizeFrom (c :: normalized) rest
termination_by chunk => chunk.length
decreasing_by
  · have shorter := skipEscape_length rest
    rw [List.length_cons]
    omega
  · have shorter := skipNewline_length rest
    rw [List.length_cons]
    omega
  · exact Nat.lt_succ_self _
  · exact Nat.lt_succ_self _
  · exact Nat.lt_succ_self _

def normalizeExecRulePtyChunk (chunk : Bytes) : Bytes := normalizeFrom [] chunk

/-! ## Lines -/

/-- `LineAccumulator::append`: the buffer afterwards and the lines that were handed over. -/
def appendText (buffer : Bytes) : Bytes → Bytes × List Bytes
  | [] => (buffer, [])
  | c :: rest =>
      if c = newline then
        let later := appendText [] rest
        (later.1, buffer :: later.2)
      else appendText (buffer ++ [c]) rest

def flushLine (buffer : Bytes) : List Bytes := if buffer.isEmpty then [] else [buffer]

/-- The inputs of the rules while chunks arrive, and behind the last one; with `screen`
each chunk is a screen input, too. -/
def outputInputs (screen : Bool) (buffer : Bytes) : List Bytes → List ExecRuleInput
  | [] => (flushLine buffer).map .line ++ if screen then [.screen []] else []
  | chunk :: chunks =>
      let appended := appendText buffer chunk
      appended.2.map .line ++ (if screen && !chunk.isEmpty then [.screen chunk] else []) ++
        outputInputs screen appended.1 chunks

/-- The inputs that `run_line_command` makes of its chunks. -/
def lineInputs (chunks : List Bytes) : List ExecRuleInput := outputInputs false [] chunks

def ptyInputs (chunks : List Bytes) : List ExecRuleInput :=
  outputInputs true [] (chunks.map normalizeExecRulePtyChunk)

/-- The lines among the inputs. -/
def inputLines (inputs : List ExecRuleInput) : List Bytes :=
  inputs.filterMap fun input =>
    match input with
    | .line text => some text
    | .screen _ => none

def runActions (oracle : RegexOracle) (ruleset : ExecRuleset) (inputs : List ExecRuleInput) : List ExecRuleAction :=
  (runExecRules oracle ruleset inputs).results.flatMap (·.actions)

/-- The size of the buffers for reading. -/
def readLimit : Nat := 4096

/-- A way in which a stream may be read. -/
structure Cuts (stream : Bytes) (chunks : List Bytes) : Prop where
  whole : chunks.flatten = stream
  sizes : ∀ chunk ∈ chunks, chunk ≠ [] ∧ chunk.length ≤ readLimit

def OnlyLines (ruleset : ExecRuleset) : Prop := ∀ rule ∈ ruleset.rules, rule.source = .line

/-- How the stream is read makes no difference to the inputs. -/
def SameForAllCuts (inputs : List Bytes → List ExecRuleInput) (stream : Bytes) : Prop :=
  ∀ chunks others, Cuts stream chunks → Cuts stream others →
    inputLines (inputs chunks) = inputLines (inputs others) ∧
      ∀ oracle ruleset, OnlyLines ruleset →
        runActions oracle ruleset (inputs chunks) = runActions oracle ruleset (inputs others)

/-! ### The lines of a transcript -/

section Lines

theorem pieces_append_newline {front : Bytes} (plain : newline ∉ front) (back : Bytes) :
    pieces newline (front ++ newline :: back) = front :: pieces newline back := by
  induction front with
  | nil => simp [pieces]
  | cons c front ih =>
      rw [List.mem_cons, not_or] at plain
      rw [List.cons_append, pieces, if_neg (Ne.symm plain.1), ih plain.2]

theorem pieces_plain {front : Bytes} (plain : newline ∉ front) : pieces newline front = flushLine front := by
  induction front with
  | nil => rfl
  | cons c front ih =>
      rw [List.mem_cons, not_or] at plain
      rw [pieces, if_neg (Ne.symm plain.1), ih plain.2, flushLine, flushLine]
      cases front with
      | nil => rfl
      | cons next front => rfl

theorem appendText_pieces {buffer : Bytes} (plain : newline ∉ buffer) (text : Bytes) :
    newline ∉ (appendText buffer text).1 ∧ ∀ later, pieces newline (buffer ++ text ++ later) =
      (appendText buffer text).2 ++ pieces newline ((appendText buffer text).1 ++ later) := by
  induction text generalizing buffer with
  | nil => exact ⟨plain, fun later => by rw [appendText, List.append_nil, List.nil_append]⟩
  | cons c text ih =>
      rw [appendText]
      split
      · next ends =>
          subst ends
          obtain ⟨kept, pieced⟩ := ih (List.not_mem_nil (a := newline))
          refine ⟨kept, fun later => ?_⟩
          rw [List.append_assoc, List.cons_append, pieces_append_newline plain, List.cons_append]
          have rest := pieced later
          rw [List.nil_append] at rest
          rw [rest]
      · next inside =>
          have longer : newline ∉ buffer ++ [c] := by
            rw [List.mem_append, List.mem_singleton, not_or]
            exact ⟨plain, Ne.symm inside⟩
          obtain ⟨kept, pieced⟩ := ih longer
          refine ⟨kept, fun later => ?_⟩
          rw [← pieced later, List.append_assoc buffer [c], List.singleton_append]

theorem inputLines_append (front back : List ExecRuleInput) :
    inputLines (front ++ back) = inputLines front ++ inputLines back := List.filterMap_append

theorem inputLines_lines (lines : List Bytes) : inputLines (lines.map .line) = lines := by
  induction lines with
  | nil => rfl
  | cons line lines ih =>
      rw [List.map_cons, inputLines, List.filterMap_cons]
      exact congrArg _ ih

/-- The lines that are handed over are the lines of all chunks together. -/
theorem inputLines_output (screen : Bool) {buffer : Bytes} (plain : newline ∉ buffer) (chunks : List Bytes) :
    inputLines (outputInputs screen buffer chunks) = pieces newline (buffer ++ chunks.flatten) := by
  induction chunks generalizing buffer with
  | nil =>
      rw [outputInputs, inputLines_append, inputLines_lines, List.flatten_nil, List.append_nil, pieces_plain plain]
      cases screen with
      | false => exact List.append_nil _
      | true => exact List.append_nil _
  | cons chunk chunks ih =>
      obtain ⟨kept, pieced⟩ := appendText_pieces plain chunk
      have screened : inputLines (if screen && !chunk.isEmpty then [.screen chunk] else []) = [] := by
        split <;> rfl
      rw [outputInputs, inputLines_append, inputLines_append, inputLines_lines, screened, List.append_nil, ih kept,
        List.flatten_cons, ← List.append_assoc, pieced]

theorem lines_lineInputs (chunks : List Bytes) : inputLines (lineInputs chunks) = pieces newline chunks.flatten :=
  inputLines_output false List.not_mem_nil chunks

theorem lines_ptyInputs (chunks : List Bytes) :
    inputLines (ptyInputs chunks) = pieces newline (chunks.flatMap normalizeExecRulePtyChunk) :=
  inputLines_output true List.not_mem_nil _

end Lines

/-! ### Rulesets without screen rules -/

section OnlyLines

variable {oracle : RegexOracle} {ruleset : ExecRuleset}

theorem evaluateRulesFrom_other {tryMatch : Matcher} {index : Nat} {rules : List ExecRule}
    (lines : ∀ rule ∈ rules, rule.source = .line) (runtime : ExecRuleRuntimeState) :
    evaluateRulesFrom .screen tryMatch index rules runtime = (runtime, {}) := by
  induction rules generalizing index with
  | nil => rfl
  | cons rule rules ih =>
      have line := lines rule List.mem_cons_self
      rw [evaluateRulesFrom, if_neg]
      · exact ih fun other member => lines other (List.mem_cons_of_mem _ member)
      · rintro ⟨screen, -⟩
        rw [line] at screen
        cases screen

/-- Without screen rules the actions follow from the lines. -/
theorem actions_of_lines (lines : OnlyLines ruleset) (transcript other : Bytes) (runtime : ExecRuleRuntimeState)
    (inputs : List ExecRuleInput) :
    (evaluateInputs oracle ruleset transcript runtime inputs).results.flatMap (·.actions) =
      (evaluateInputs oracle ruleset other runtime ((inputLines inputs).map .line)).results.flatMap (·.actions) := by
  induction inputs generalizing transcript runtime with
  | nil => rfl
  | cons input inputs ih =>
      cases input with
      | line text =>
          have rest := ih transcript (evaluateInput oracle ruleset transcript runtime (.line text)).1
          exact congrArg ((evaluateInput oracle ruleset transcript runtime (.line text)).2.actions ++ ·) rest
      | screen more =>
          have nothing : evaluateInput oracle ruleset transcript runtime (.screen more) = (runtime, {}) :=
            evaluateRulesFrom_other lines runtime
          rw [evaluateInputs, nothing]
          exact ih _ _

theorem runActions_congr (lines : OnlyLines ruleset) {inputs others : List ExecRuleInput}
    (same : inputLines inputs = inputLines others) :
    runActions oracle ruleset inputs = runActions oracle ruleset others := by
  have left := @actions_of_lines oracle ruleset lines [] [] (makeExecRuleRuntimeState ruleset) inputs
  have right := @actions_of_lines oracle ruleset lines [] [] (makeExecRuleRuntimeState ruleset) others
  rw [same] at left
  exact left.trans right.symm

end OnlyLines

end ReqPack.PluginHost
