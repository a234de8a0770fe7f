import ReqPack.Data.Bytes

/-! # The engine of the exec rules

A ruleset watches the output of a command.  Line rules see one line at a time, screen rules
the transcript from where their last match ended.  The regular expressions are an oracle.
-/

namespace ReqPack.PluginHost

open ReqPack.Data
open ReqPack.Data.Ascii

inductive ExecRuleSource
  | line
  | screen
deriving DecidableEq, Repr

inductive ExecRuleActionType
  | send
  | state
  | log
  | status
  | progress
  | beginStep
  | success
  | failed
  | event
  | artifact
deriving DecidableEq, Repr

structure ExecRuleAction where
  type : ExecRuleActionType
  fields : List (Bytes × Bytes)
deriving DecidableEq, Repr

/-- `repeats` is the field `repeat`. -/
structure ExecRule where
  state : Option Bytes := none
  source : ExecRuleSource
  regexText : Bytes
  actions : List ExecRuleAction
  repeats : Bool := true
  stop : Bool := false
deriving DecidableEq, Repr

structure ExecRuleset where
  initialState : Bytes := bytes "default"
  rules : List ExecRule

structure ExecRuleRuntimeState where
  currentState : Bytes
  disabled : List Bool
  screenCursor : List Nat
deriving DecidableEq, Repr

namespace ExecRuleRuntimeState

def isDisabled (runtime : ExecRuleRuntimeState) (index : Nat) : Bool := runtime.disabled.getD index false

def cursor (runtime : ExecRuleRuntimeState) (index : Nat) : Nat := runtime.screenCursor.getD index 0

end ExecRuleRuntimeState

/-- `captures` begins with the whole match. -/
structure RegexMatch where
  position : Nat
  length : Nat
  captures : List Bytes
deriving DecidableEq, Repr

/-- `std::regex_search` with the text of a regular expression; a match lies in its input. -/
structure RegexOracle where
  search : Bytes → Bytes → Option RegexMatch
  inside : ∀ regex text found, search regex text = some found → found.position + found.length ≤ text.length

/-! ## Placeholders -/

def dollar : UInt8 := 36

def openingBrace : UInt8 := 123

def closingBrace : UInt8 := 125

/-- The number in a placeholder and the bytes behind the dollar that belong to it. -/
def placeholder (rest : Bytes) : Option (Nat × Nat) :=
  if rest.head? == some openingBrace && rest.tail.contains closingBrace then
    let token := rest.tail.takeWhile (· != closingBrace)
    (stoull token).map fun captureIndex => (captureIndex, token.length + 2)
  else none

/-- Bytes that belong to a placeholder are skipped. -/
def substituteFrom (captures : List Bytes) : Nat → Bytes → Bytes
  | _, [] => []
  | skipped + 1, _ :: rest => substituteFrom captures skipped rest
  | 0, c :: rest =>
      if c = dollar then
        match placeholder rest with
        | some (captureIndex, length) => (captures.getD captureIndex []) ++ substituteFrom captures length rest
        | none => c :: substituteFrom captures 0 rest
      else c :: substituteFrom captures 0 rest

def substitutePlaceholders (input : Bytes) (captures : List Bytes) : Bytes := substituteFrom captures 0 input

def resolveAction (captures : List Bytes) (action : ExecRuleAction) : ExecRuleAction where
  type := action.type
  fields := action.fields.map fun field => (field.1, substitutePlaceholders field.2 captures)

/-! ## Evaluation -/

def ruleActive (rule : ExecRule) (runtime : ExecRuleRuntimeState) (index : Nat) : Bool :=
  !runtime.isDisabled index && rule.state.all (· == runtime.currentState)

/-- A rule that fired: the state it fired in and its screen cursor before and after. -/
structure Firing where
  rule : Nat
  state : Bytes
  start : Nat
  stop : Nat
deriving DecidableEq, Repr

/-- `fired` is not part of the source: the rules whose actions these are. -/
structure ExecRuleEvaluationResult where
  actions : List ExecRuleAction := []
  stopTriggered : Bool := false
  fired : List Firing := []
deriving DecidableEq, Repr

def applyAction (currentState : Bytes) (resolved : ExecRuleAction) : Bytes :=
  if resolved.type = .state then
    match resolved.fields.lookup (bytes "value") with
    | some value => if value.isEmpty then currentState else value
    | none => currentState
  else currentState

/-- What a match does to the state: its actions are applied and the rule may be disabled. -/
def afterMatch (rule : ExecRule) (index : Nat) (captures : List Bytes) (runtime : ExecRuleRuntimeState) :
    ExecRuleRuntimeState where
  currentState := (rule.actions.map (resolveAction captures)).foldl applyAction runtime.currentState
  disabled := if rule.repeats then runtime.disabled else runtime.disabled.set index true
  screenCursor := runtime.screenCursor

/-- A matcher may move the cursor of the rule it is asked about. -/
abbrev Matcher := Nat → ExecRule → ExecRuleRuntimeState → Option (RegexMatch × ExecRuleRuntimeState)

section Evaluation

variable (source : ExecRuleSource) (tryMatch : Matcher)

/-- The loop of `evaluate_rules_for_source` from a rule on. -/
def evaluateRulesFrom : Nat → List ExecRule → ExecRuleRuntimeState → ExecRuleRuntimeState × ExecRuleEvaluationResult
  | _, [], runtime => (runtime, {})
  | index, rule :: rules, runtime =>
      if rule.source = source ∧ ruleActive rule runtime index = true then
        match tryMatch index rule runtime with
        | none => evaluateRulesFrom (index + 1) rules runtime
        | some (found, moved) =>
            let actions := rule.actions.map (resolveAction found.captures)
            let firing : Firing := ⟨index, runtime.currentState, runtime.cursor index, moved.cursor index⟩
            let after := afterMatch rule index found.captures moved
            if rule.stop then (after, ⟨actions, true, [firing]⟩)
            else
              let rest := evaluateRulesFrom (index + 1) rules after
              (rest.1, ⟨actions ++ rest.2.actions, rest.2.stopTriggered, firing :: rest.2.fired⟩)
      else evaluateRulesFrom (index + 1) rules runtime

def evaluateRulesForSource (ruleset : ExecRuleset) (runtime : ExecRuleRuntimeState) :
    ExecRuleRuntimeState × ExecRuleEvaluationResult :=
  evaluateRulesFrom source tryMatch 0 ruleset.rules runtime

end Evaluation

def makeExecRuleRuntimeState (ruleset : ExecRuleset) : ExecRuleRuntimeState where
  currentState := ruleset.initialState
  disabled := List.replicate ruleset.rules.length false
  screenCursor := List.replicate ruleset.rules.length 0

section Inputs

variable (oracle : RegexOracle)

def matchLine (line : Bytes) : Matcher := fun _ rule runtime =>
  (oracle.search rule.regexText line).map fun found => (found, runtime)

def matchScreen (transcript : Bytes) : Matcher := fun index rule runtime =>
  let cursor := min (runtime.cursor index) transcript.length
  (oracle.search rule.regexText (transcript.drop cursor)).map fun found =>
    (found, { runtime with screenCursor := runtime.screenCursor.set index (cursor + (found.position + found.length)) })

def evaluateExecRuleLineInput (ruleset : ExecRuleset) (runtime : ExecRuleRuntimeState) (line : Bytes) :
    ExecRuleRuntimeState × ExecRuleEvaluationResult :=
  evaluateRulesForSource .line (matchLine oracle line) ruleset runtime

def evaluateExecRuleScreenInput (ruleset : ExecRuleset) (runtime : ExecRuleRuntimeState) (transcript : Bytes) :
    ExecRuleRuntimeState × ExecRuleEvaluationResult :=
  evaluateRulesForSource .screen (matchScreen oracle transcript) ruleset runtime

end Inputs

end ReqPack.PluginHost
