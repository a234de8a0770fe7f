import ReqPack.PluginHost.Chunking
import ReqPack.PluginHost.ExecRuleTables

/-! # What accepted rules dispatch

A ruleset that was accepted, the runner that is chosen for it, and the actions that any
output brings about.
-/

namespace ReqPack.PluginHost

open ReqPack.Data
open ReqPack.Data.Ascii

section Dispatch

variable {oracle : RegexOracle} {compile : Bytes → Except Bytes Unit} {ruleset : ExecRuleset} {parsed : ParsedRuleset}
  {action : ExecRuleAction}

theorem hasRequiredField_resolveAction (captures : List Bytes) (action : ExecRuleAction) (name : String) :
    hasRequiredField (resolveAction captures action) name = hasRequiredField action name := by
  simp only [hasRequiredField, resolveAction]
  induction action.fields with
  | nil => rfl
  | cons field fields ih =>
      rw [List.map_cons, List.lookup_cons, List.lookup_cons]
      cases bytes name == field.1 with
      | true => rfl
      | false => exact ih

theorem Complete.resolveAction (complete : Complete action) (captures : List Bytes) :
    Complete (resolveAction captures action) := by
  simp only [Complete, hasRequiredField_resolveAction] at complete ⊢
  exact complete

/-- An action that a rule dispatches is one of its actions with captures put in. -/
def ActionOf (rules : List ExecRule) (action : ExecRuleAction) : Prop :=
  ∃ rule ∈ rules, ∃ given ∈ rule.actions, ∃ captures, action = resolveAction captures given

theorem evaluateRulesFrom_actions {source : ExecRuleSource} {tryMatch : Matcher} {index : Nat} {rules : List ExecRule}
    {runtime : ExecRuleRuntimeState} (dispatched : action ∈ (evaluateRulesFrom source tryMatch index rules runtime).2.actions) :
    ActionOf rules action := by
  induction rules generalizing index runtime with
  | nil => cases dispatched
  | cons rule rules ih =>
      have later : ActionOf rules action → ActionOf (rule :: rules) action :=
        fun ⟨other, member, of⟩ => ⟨other, List.mem_cons_of_mem _ member, of⟩
      have here : ∀ captures, action ∈ rule.actions.map (resolveAction captures) → ActionOf (rule :: rules) action := by
        intro captures member
        obtain ⟨given, listed, same⟩ := List.mem_map.mp member
        exact ⟨rule, List.mem_cons_self, given, listed, captures, same.symm⟩
      rw [evaluateRulesFrom] at dispatched
      split at dispatched
      · split at dispatched
        · exact later (ih dispatched)
        · split at dispatched
          · exact here _ dispatched
          · rcases List.mem_append.mp dispatched with own | rest
            · exact here _ own
            · exact later (ih rest)
      · exact later (ih dispatched)

theorem runActions_of_rules {inputs : List ExecRuleInput} (dispatched : action ∈ runActions oracle ruleset inputs) :
    ActionOf ruleset.rules action := by
  have run : ∀ inputs transcript runtime,
      action ∈ (evaluateInputs oracle ruleset transcript runtime inputs).results.flatMap (·.actions) →
        ActionOf ruleset.rules action := by
    intro inputs
    induction inputs with
    | nil => exact fun _ _ nothing => by cases nothing
    | cons input inputs ih =>
        intro transcript runtime member
        rw [evaluateInputs, List.flatMap_cons, List.mem_append] at member
        rcases member with first | rest
        · cases input with
          | line text => exact evaluateRulesFrom_actions first
          | screen more => exact evaluateRulesFrom_actions first
        · exact ih _ _ rest
  exact run _ _ _ dispatched

theorem complete_of_accepted {object : LuaObject} (distinct : object.Distinct) (read : parseExecRules compile object = .ok parsed) :
    (∀ rule ∈ parsed.ruleset.rules, ∀ action ∈ rule.actions, Complete action) ∧
      parsed.requiresPty = parsed.ruleset.rules.any requiresPty := by
  cases object with
  | table entries =>
      obtain ⟨names, values⟩ := distinct_table distinct
      have table := rulesetTable_of_read names values read
      refine ⟨fun rule member action listed => ?_, table.requiresPty⟩
      obtain ⟨_, objects, -, -, rules⟩ := table.rules
      obtain ⟨_, -, _, -, ruleTable⟩ := exists_left_of_forall₂ rules member
      obtain ⟨-, _, _, -, -, actions⟩ := ruleTable.actions
      obtain ⟨_, -, _, -, actionTable⟩ := exists_left_of_forall₂ actions listed
      exact actionTable.complete
  | _ => cases read

theorem mode_of_requires (requires : parsed.requiresPty = parsed.ruleset.rules.any requiresPty)
    (other : determineExecRuleRunnerMode parsed ≠ .pty) : ∀ rule ∈ parsed.ruleset.rules, requiresPty rule = false := by
  intro rule member
  rw [determineExecRuleRunnerMode] at other
  split at other
  · next empty =>
      rw [List.isEmpty_iff.mp empty] at member
      cases member
  · split at other
    · exact absurd rfl other
    · next quiet =>
        rw [requires, Bool.not_eq_true, List.any_eq_false] at quiet
        exact Bool.not_eq_true _ ▸ quiet rule member

/-- A byte that the runner with a terminal hands on as it is. -/
def Printed (c : UInt8) : Prop :=
  c ≠ escapeByte ∧ c ≠ carriageReturn ∧ c ≠ backspace ∧ ¬(c < 32 ∧ c ≠ newline ∧ c ≠ tab)

theorem normalize_printed {chunk : Bytes} (printed : ∀ c ∈ chunk, Printed c) : normalizeExecRulePtyChunk chunk = chunk := by
  rw [normalizeExecRulePtyChunk, normalizeFrom_plain fun c member =>
    ⟨(printed c member).1, (printed c member).2.1, (printed c member).2.2.1⟩, List.reverse_nil, List.nil_append, normalizeBytes]
  induction chunk with
  | nil => rfl
  | cons c rest ih =>
      rw [List.forall_mem_cons] at printed
      obtain ⟨⟨escape, isReturn, back, control⟩, others⟩ := printed
      rw [List.flatMap_cons, ih others, normalizeByte, if_neg isReturn, if_neg]
      · rfl
      · rintro (same | same | same)
        · exact escape same
        · exact back same
        · exact control same

/-- Every action that an accepted ruleset dispatches, on any output, has the fields its type
requires, and only the runner with a terminal is asked to send.  Without one nothing is
missed, either: on printed output a terminal would make no difference. -/
theorem accepted_rules_dispatch (oracle : RegexOracle) (object : LuaObject) (parsed : ParsedRuleset)
    (distinct : object.Distinct) (read : parseExecRules compile object = .ok parsed) :
    (∀ inputs, ∀ action ∈ runActions oracle parsed.ruleset inputs,
      Complete action ∧ (action.type = .send → determineExecRuleRunnerMode parsed = .pty)) ∧
    (determineExecRuleRunnerMode parsed ≠ .pty → ∀ stream chunks others, (∀ c ∈ stream, Printed c) →
      Cuts stream chunks → Cuts stream others →
        runActions oracle parsed.ruleset (lineInputs chunks) = runActions oracle parsed.ruleset (ptyInputs others)) := by
  obtain ⟨complete, requires⟩ := complete_of_accepted distinct read
  constructor
  · intro inputs action dispatched
    obtain ⟨rule, member, given, listed, captures, rfl⟩ := runActions_of_rules dispatched
    refine ⟨(complete rule member given listed).resolveAction captures, fun sends => ?_⟩
    by_contra other
    have quiet := mode_of_requires requires other rule member
    rw [requiresPty, Bool.or_eq_false_iff, PluginHost.sends, List.any_eq_false] at quiet
    exact quiet.2 given listed (beq_iff_eq.mpr sends)
  · intro other stream chunks others printed cuts cutsOther
    have lines : OnlyLines parsed.ruleset := by
      intro rule member
      have quiet := mode_of_requires requires other rule member
      rw [requiresPty, Bool.or_eq_false_iff] at quiet
      cases source : rule.source with
      | line => rfl
      | screen =>
          rw [source] at quiet
          exact absurd quiet.1 (by decide)
    refine runActions_congr lines ?_
    have each : ∀ chunk ∈ others, normalizeExecRulePtyChunk chunk = chunk := fun chunk member =>
      normalize_printed fun c inside => printed c (cutsOther.whole ▸ List.mem_flatten_of_mem member inside)
    rw [lines_lineInputs, lines_ptyInputs, cuts.whole, ← cutsOther.whole, List.flatMap_congr each, List.flatMap_id']

/-- The line "continue" matches the expression "continue". -/
def continueOracle : RegexOracle where
  search regex text := if regex = bytes "continue" ∧ text = regex then some ⟨0, text.length, [text]⟩ else none
  inside regex text found matched := by
    split at matched
    · cases matched
      exact (Nat.zero_add _).le
    · cases matched

theorem accepted_rules_dispatch_answer :
    Complete ⟨.send, [(bytes "value", bytes "y")]⟩ ∧ determineExecRuleRunnerMode answerRules = .pty := by
  have read := read_of_rulesetTable (distinct_table answerEntries_distinct).1 (distinct_table answerEntries_distinct).2
    answerRules_table
  have dispatched := (accepted_rules_dispatch continueOracle _ _ answerEntries_distinct read).1 [.line (bytes "continue")]
    ⟨.send, [(bytes "value", bytes "y")]⟩ (by decide)
  exact ⟨dispatched.1, dispatched.2 rfl⟩

end Dispatch

end ReqPack.PluginHost
