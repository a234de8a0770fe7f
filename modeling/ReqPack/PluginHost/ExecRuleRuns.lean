import Mathlib.Data.List.Infix
import Mathlib.Data.List.Pairwise
import ReqPack.PluginHost.ExecRules

/-! # Runs of the exec rules

What holds of the state of a ruleset and of the rules that fired, after any lines and
transcripts.
-/

namespace ReqPack.PluginHost

open ReqPack.Data

/-- A line of the output, or what the transcript grew by. -/
inductive ExecRuleInput
  | line (text : Bytes)
  | screen (more : Bytes)
deriving DecidableEq, Repr

/-- The transcript after an input. -/
def transcriptAfter (transcript : Bytes) : ExecRuleInput → Bytes
  | .line _ => transcript
  | .screen more => transcript ++ more

section Runs

variable (oracle : RegexOracle) (ruleset : ExecRuleset)

def evaluateInput (transcript : Bytes) (runtime : ExecRuleRuntimeState) :
    ExecRuleInput → ExecRuleRuntimeState × ExecRuleEvaluationResult
  | .line text => evaluateExecRuleLineInput oracle ruleset runtime text
  | .screen more => evaluateExecRuleScreenInput oracle ruleset runtime (transcript ++ more)

/-- What some inputs leave. -/
structure ExecRuleRun where
  transcript : Bytes
  runtime : ExecRuleRuntimeState
  /-- one for each input -/
  results : List ExecRuleEvaluationResult

def evaluateInputs (transcript : Bytes) (runtime : ExecRuleRuntimeState) : List ExecRuleInput → ExecRuleRun
  | [] => ⟨transcript, runtime, []⟩
  | input :: inputs =>
      let first := evaluateInput oracle ruleset transcript runtime input
      let rest := evaluateInputs (transcriptAfter transcript input) first.1 inputs
      { rest with results := first.2 :: rest.results }

/-- A run from the start of a command. -/
def runExecRules (inputs : List ExecRuleInput) : ExecRuleRun :=
  evaluateInputs oracle ruleset [] (makeExecRuleRuntimeState ruleset) inputs

/-- The rules that fired, one after another. -/
def ExecRuleRun.fired (run : ExecRuleRun) : List Firing := run.results.flatMap (·.fired)

end Runs

/-! ## One match -/

/-- What a matcher does to the state when a rule matches. -/
structure Advances (length index : Nat) (before after : ExecRuleRuntimeState) : Prop where
  currentState : after.currentState = before.currentState
  disabled : after.disabled = before.disabled
  others : ∀ other, other ≠ index → after.cursor other = before.cursor other
  forward : before.cursor index ≤ length → before.cursor index ≤ after.cursor index
  bounded : before.cursor index ≤ length → after.cursor index ≤ length

section Matching

variable {oracle : RegexOracle} {index length : Nat} {rule : ExecRule} {runtime moved : ExecRuleRuntimeState} {found : RegexMatch}

theorem matchLine_advances {line : Bytes} (matched : matchLine oracle line index rule runtime = some (found, moved)) :
    Advances length index runtime moved := by
  obtain ⟨_, _, same⟩ := Option.map_eq_some_iff.mp matched
  cases same
  exact ⟨rfl, rfl, fun _ _ => rfl, fun _ => Nat.le_refl _, fun bounded => bounded⟩

theorem cursor_set (runtime : ExecRuleRuntimeState) (index value other : Nat) :
    (ExecRuleRuntimeState.mk runtime.currentState runtime.disabled (runtime.screenCursor.set index value)).cursor other =
      if other = index ∧ index < runtime.screenCursor.length then value else runtime.cursor other := by
  simp only [ExecRuleRuntimeState.cursor, List.getD_eq_getElem?_getD, List.getElem?_set]
  split
  · next same =>
      subst same
      split
      · simp [*]
      · next outside => simp [outside]
  · next apart =>
      rw [if_neg]
      rintro ⟨rfl, -⟩
      exact apart rfl

theorem matchScreen_advances {transcript : Bytes}
    (matched : matchScreen oracle transcript index rule runtime = some (found, moved)) :
    Advances transcript.length index runtime moved := by
  obtain ⟨match', searched, same⟩ := Option.map_eq_some_iff.mp matched
  have inside := oracle.inside _ _ _ searched
  cases same
  rw [List.length_drop] at inside
  refine ⟨rfl, rfl, fun other apart => ?_, fun within => ?_, fun within => ?_⟩
  · rw [cursor_set, if_neg fun both => apart both.1]
  · rw [cursor_set]
    split
    · omega
    · exact Nat.le_refl _
  · rw [cursor_set]
    split
    · omega
    · exact within

end Matching

/-! ## What holds in every state -/

def firedCount (fired : List Firing) (index : Nat) : Nat := fired.countP fun firing => firing.rule == index

/-- The discipline of the engine: `shown` bytes of transcript were seen and the listed rules
have fired. -/
structure Disciplined (rules : List ExecRule) (shown : Nat) (runtime : ExecRuleRuntimeState) (fired : List Firing) :
    Prop where
  size : runtime.disabled.length = rules.length
  once : ∀ index rule, rules[index]? = some rule → rule.repeats = false →
    firedCount fired index ≤ if runtime.isDisabled index then 1 else 0
  stated : ∀ firing ∈ fired, ∃ rule, rules[firing.rule]? = some rule ∧ ∀ state ∈ rule.state, firing.state = state
  bounded : ∀ index, runtime.cursor index ≤ shown
  consumed : ∀ firing ∈ fired, firing.start ≤ firing.stop ∧ firing.stop ≤ runtime.cursor firing.rule
  ordered : fired.Pairwise fun first later => first.rule = later.rule → first.stop ≤ later.start

section Discipline

variable {rules : List ExecRule} {shown index : Nat} {runtime moved : ExecRuleRuntimeState} {fired : List Firing}
  {rule : ExecRule} {captures : List Bytes}

theorem makeExecRuleRuntimeState_disciplined (ruleset : ExecRuleset) :
    Disciplined ruleset.rules 0 (makeExecRuleRuntimeState ruleset) [] where
  size := List.length_replicate
  once _ _ _ _ := Nat.zero_le _
  stated firing none := by cases none
  bounded index := by
    simp only [makeExecRuleRuntimeState, ExecRuleRuntimeState.cursor, List.getD_eq_getElem?_getD, List.getElem?_replicate]
    split <;> exact Nat.le_refl 0
  consumed firing none := by cases none
  ordered := List.Pairwise.nil

theorem Disciplined.grow (disciplined : Disciplined rules shown runtime fired) {longer : Nat} (grown : shown ≤ longer) :
    Disciplined rules longer runtime fired :=
  { disciplined with bounded := fun index => (disciplined.bounded index).trans grown }

theorem isDisabled_afterMatch (size : moved.disabled.length = rules.length) (listed : rules[index]? = some rule)
    (other : Nat) : (afterMatch rule index captures moved).isDisabled other =
      if other = index ∧ rule.repeats = false then true else moved.isDisabled other := by
  have inside : index < moved.disabled.length := by
    rw [size]
    exact (List.getElem?_eq_some_iff.mp listed).choose
  simp only [afterMatch, ExecRuleRuntimeState.isDisabled, List.getD_eq_getElem?_getD]
  cases rule.repeats with
  | true => simp
  | false =>
      simp only [Bool.false_eq_true, if_false, and_true, List.getElem?_set]
      by_cases same : other = index
      · subst same
        simp [inside]
      · rw [if_neg (Ne.symm same), if_neg same]

/-- A rule that fires keeps the discipline. -/
theorem Disciplined.fire (disciplined : Disciplined rules shown runtime fired) (listed : rules[index]? = some rule)
    (active : ruleActive rule runtime index = true) (advances : Advances shown index runtime moved) :
    Disciplined rules shown (afterMatch rule index captures moved)
      (fired ++ [⟨index, runtime.currentState, runtime.cursor index, moved.cursor index⟩]) := by
  rw [ruleActive, Bool.and_eq_true, Bool.not_eq_true'] at active
  have size : moved.disabled.length = rules.length := advances.disabled ▸ disciplined.size
  have forward := advances.forward (disciplined.bounded index)
  have kept : ∀ other, runtime.cursor other ≤ (afterMatch rule index captures moved).cursor other := by
    intro other
    change runtime.cursor other ≤ moved.cursor other
    by_cases same : other = index
    · rw [same]
      exact forward
    · exact Nat.le_of_eq (advances.others other same).symm
  refine ⟨?_, fun other entry present single => ?_, fun firing member => ?_, fun other => ?_, fun firing member => ?_, ?_⟩
  · rw [afterMatch]
    split
    · exact size
    · rw [List.length_set, size]
  · have before := disciplined.once other entry present single
    rw [firedCount, List.countP_append, isDisabled_afterMatch size listed]
    by_cases same : other = index
    · subst same
      obtain rfl : rule = entry := Option.some.inj (listed.symm.trans present)
      rw [active.1] at before
      simp only [Bool.false_eq_true, if_false, Nat.le_zero] at before
      rw [firedCount] at before
      simp [before, single]
    · have elsewhere : ¬index = other := fun equal => same equal.symm
      have stays : moved.isDisabled other = runtime.isDisabled other := by
        simp only [ExecRuleRuntimeState.isDisabled, advances.disabled]
      simp only [List.countP_singleton, beq_iff_eq, elsewhere, if_false, same, false_and, stays, Nat.add_zero]
      exact before
  · rcases List.mem_append.mp member with earlier | now
    · exact disciplined.stated firing earlier
    · rw [List.mem_singleton.mp now]
      refine ⟨rule, listed, fun state stated => ?_⟩
      have holds := active.2
      rw [Option.mem_def.mp stated, Option.all_some, beq_iff_eq] at holds
      exact holds.symm
  · change moved.cursor other ≤ shown
    by_cases same : other = index
    · rw [same]
      exact advances.bounded (disciplined.bounded index)
    · rw [advances.others other same]
      exact disciplined.bounded other
  · rcases List.mem_append.mp member with earlier | now
    · obtain ⟨ordered, below⟩ := disciplined.consumed firing earlier
      exact ⟨ordered, below.trans (kept firing.rule)⟩
    · rw [List.mem_singleton.mp now]
      exact ⟨forward, Nat.le_refl _⟩
  · rw [List.pairwise_append]
    refine ⟨disciplined.ordered, List.pairwise_singleton _ _, fun first earlier later now same => ?_⟩
    rw [List.mem_singleton.mp now] at same ⊢
    have below := (disciplined.consumed first earlier).2
    rwa [same] at below

end Discipline

/-! ## Evaluations and runs -/

/-- Nothing fires behind a rule that stops the evaluation. -/
def StopsLast (rules : List ExecRule) (fired : List Firing) : Prop :=
  fired.Pairwise fun first _ => ∀ rule ∈ rules[first.rule]?, rule.stop = false

section Evaluations

variable {rules : List ExecRule} {shown : Nat} {source : ExecRuleSource} {tryMatch : Matcher}

theorem evaluateRulesFrom_disciplined
    (advances : ∀ index rule runtime found moved, tryMatch index rule runtime = some (found, moved) →
      Advances shown index runtime moved) {index : Nat} {rest : List ExecRule}
    (suffix : ∀ offset, rest[offset]? = rules[index + offset]?) {runtime : ExecRuleRuntimeState} {fired : List Firing}
    (disciplined : Disciplined rules shown runtime fired) :
    Disciplined rules shown (evaluateRulesFrom source tryMatch index rest runtime).1
        (fired ++ (evaluateRulesFrom source tryMatch index rest runtime).2.fired) ∧
      (∀ other, runtime.cursor other ≤ (evaluateRulesFrom source tryMatch index rest runtime).1.cursor other) ∧
      StopsLast rules (evaluateRulesFrom source tryMatch index rest runtime).2.fired := by
  induction rest generalizing index runtime fired with
  | nil =>
      rw [evaluateRulesFrom, List.append_nil]
      exact ⟨disciplined, fun _ => Nat.le_refl _, List.Pairwise.nil⟩
  | cons rule rest ih =>
      have listed : rules[index]? = some rule := (suffix 0).symm
      have next : ∀ offset, rest[offset]? = rules[index + 1 + offset]? := by
        intro offset
        have shifted := suffix (offset + 1)
        rwa [List.getElem?_cons_succ, show index + (offset + 1) = index + 1 + offset by omega] at shifted
      rw [evaluateRulesFrom]
      by_cases considered : rule.source = source ∧ ruleActive rule runtime index = true
      · rw [if_pos considered]
        cases matched : tryMatch index rule runtime with
        | none => exact ih next disciplined
        | some result =>
            obtain ⟨found, moved⟩ := result
            have advance := advances index rule runtime found moved matched
            have fires := @Disciplined.fire rules shown index runtime moved fired rule found.captures disciplined listed
              considered.2 advance
            have forward : ∀ other, runtime.cursor other ≤ (afterMatch rule index found.captures moved).cursor other := by
              intro other
              change runtime.cursor other ≤ moved.cursor other
              by_cases same : other = index
              · rw [same]
                exact advance.forward (disciplined.bounded index)
              · exact Nat.le_of_eq (advance.others other same).symm
            cases stops : rule.stop with
            | true => exact ⟨fires, forward, List.pairwise_singleton _ _⟩
            | false =>
                obtain ⟨kept, further, last⟩ := ih next fires
                rw [List.append_assoc, List.singleton_append] at kept
                refine ⟨kept, fun other => (forward other).trans (further other), List.Pairwise.cons ?_ last⟩
                intro later _ entry present
                rw [listed] at present
                rw [← Option.some.inj present]
                exact stops
      · rw [if_neg considered]
        exact ih next disciplined

end Evaluations

section Discipline

variable {oracle : RegexOracle} {ruleset : ExecRuleset} {transcript : Bytes} {runtime : ExecRuleRuntimeState}

theorem evaluateInput_disciplined {fired : List Firing}
    (disciplined : Disciplined ruleset.rules transcript.length runtime fired) (input : ExecRuleInput) :
    Disciplined ruleset.rules (transcriptAfter transcript input).length
        (evaluateInput oracle ruleset transcript runtime input).1
        (fired ++ (evaluateInput oracle ruleset transcript runtime input).2.fired) ∧
      (∀ index, runtime.cursor index ≤ (evaluateInput oracle ruleset transcript runtime input).1.cursor index) ∧
      StopsLast ruleset.rules (evaluateInput oracle ruleset transcript runtime input).2.fired := by
  have whole : ∀ offset, ruleset.rules[offset]? = ruleset.rules[0 + offset]? := fun offset => by rw [Nat.zero_add]
  cases input with
  | line text =>
      exact evaluateRulesFrom_disciplined (fun _ _ _ _ _ matched => matchLine_advances matched) whole disciplined
  | screen more =>
      have grown : transcript.length ≤ (transcript ++ more).length := by
        rw [List.length_append]
        omega
      exact evaluateRulesFrom_disciplined (fun _ _ _ _ _ matched => matchScreen_advances matched) whole
        (disciplined.grow grown)

theorem evaluateInputs_disciplined {fired : List Firing}
    (disciplined : Disciplined ruleset.rules transcript.length runtime fired) (inputs : List ExecRuleInput) :
    Disciplined ruleset.rules (evaluateInputs oracle ruleset transcript runtime inputs).transcript.length
        (evaluateInputs oracle ruleset transcript runtime inputs).runtime
        (fired ++ (evaluateInputs oracle ruleset transcript runtime inputs).fired) ∧
      (∀ index, runtime.cursor index ≤ (evaluateInputs oracle ruleset transcript runtime inputs).runtime.cursor index) ∧
      ∀ result ∈ (evaluateInputs oracle ruleset transcript runtime inputs).results, StopsLast ruleset.rules result.fired := by
  induction inputs generalizing transcript runtime fired with
  | nil =>
      rw [evaluateInputs, ExecRuleRun.fired, List.flatMap_nil, List.append_nil]
      exact ⟨disciplined, fun _ => Nat.le_refl _, fun result none => by cases none⟩
  | cons input inputs ih =>
      obtain ⟨kept, forward, last⟩ := @evaluateInput_disciplined oracle ruleset transcript runtime fired disciplined input
      obtain ⟨further, beyond, each⟩ := ih kept
      rw [List.append_assoc] at further
      refine ⟨further, fun index => (forward index).trans (beyond index), fun result member => ?_⟩
      rcases List.mem_cons.mp member with rfl | later
      · exact last
      · exact each result later

theorem evaluateInputs_append (front back : List ExecRuleInput) :
    (evaluateInputs oracle ruleset transcript runtime (front ++ back)).runtime =
      (evaluateInputs oracle ruleset (evaluateInputs oracle ruleset transcript runtime front).transcript
        (evaluateInputs oracle ruleset transcript runtime front).runtime back).runtime := by
  induction front generalizing transcript runtime with
  | nil => rfl
  | cons input front ih => exact ih

end Discipline

/-- In every run a rule without repeat fires at most once and a rule with a state only in
that state; the cursors move forward within the transcript; the regions that a rule consumes
follow each other; and a rule that stops is the last of its evaluation. -/
theorem exec_rule_discipline (oracle : RegexOracle) (ruleset : ExecRuleset) (inputs : List ExecRuleInput) :
    (∀ index rule, ruleset.rules[index]? = some rule → rule.repeats = false →
        firedCount (runExecRules oracle ruleset inputs).fired index ≤ 1) ∧
      (∀ firing ∈ (runExecRules oracle ruleset inputs).fired, ∃ rule, ruleset.rules[firing.rule]? = some rule ∧
        ∀ state ∈ rule.state, firing.state = state) ∧
      (∀ front back, inputs = front ++ back → ∀ index,
        (runExecRules oracle ruleset front).runtime.cursor index ≤ (runExecRules oracle ruleset inputs).runtime.cursor index) ∧
      (∀ index, (runExecRules oracle ruleset inputs).runtime.cursor index ≤
        (runExecRules oracle ruleset inputs).transcript.length) ∧
      (∀ firing ∈ (runExecRules oracle ruleset inputs).fired, firing.start ≤ firing.stop ∧
        firing.stop ≤ (runExecRules oracle ruleset inputs).transcript.length) ∧
      ((runExecRules oracle ruleset inputs).fired.Pairwise fun first later =>
        first.rule = later.rule → first.stop ≤ later.start) ∧
      ∀ result ∈ (runExecRules oracle ruleset inputs).results, StopsLast ruleset.rules result.fired := by
  have started := makeExecRuleRuntimeState_disciplined ruleset
  obtain ⟨disciplined, -, last⟩ := @evaluateInputs_disciplined oracle ruleset [] _ [] started inputs
  rw [List.nil_append] at disciplined
  refine ⟨fun index rule listed single => ?_, disciplined.stated, fun front back whole index => ?_, disciplined.bounded,
    fun firing member => ?_, disciplined.ordered, last⟩
  · have once := disciplined.once index rule listed single
    split at once
    · exact once
    · exact once.trans (Nat.zero_le 1)
  · rw [whole, runExecRules, runExecRules, evaluateInputs_append]
    have reached := (@evaluateInputs_disciplined oracle ruleset [] _ [] started front).1
    exact (evaluateInputs_disciplined reached back).2.1 index
  · obtain ⟨ordered, below⟩ := disciplined.consumed firing member
    exact ⟨ordered, below.trans (disciplined.bounded firing.rule)⟩

end ReqPack.PluginHost
