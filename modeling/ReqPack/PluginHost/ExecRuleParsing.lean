import ReqPack.Data.Lists
import ReqPack.PluginHost.ExecRules

/-! # Reading exec rules

`parse_exec_rules` reads a ruleset from a table that a plugin hands over.  The entries of
a table come in the order in which Lua visits them, which is any.
-/

namespace ReqPack.PluginHost

open ReqPack.Data
open ReqPack.Data.Ascii

/-- A Lua value as the bindings show it: of a number, the index that `numeric_key_to_index`
reads and the text that `scalar_to_string` writes. -/
inductive LuaObject
  | nil
  | boolean (value : Bool)
  | number (index : Option Int) (text : Bytes)
  | string (value : Bytes)
  | table (entries : List (LuaObject × LuaObject))
  /-- userdata, a function or a thread -/
  | foreign

abbrev LuaEntries := List (LuaObject × LuaObject)

namespace LuaObject

def text? : LuaObject → Option Bytes
  | .string value => some value
  | _ => none

def index? : LuaObject → Option Int
  | .number index _ => index
  | _ => none

end LuaObject

/-! ## Arrays -/

/-- The loop over the sorted entries; `expected` is the next index. -/
def contiguousValues (context : Bytes) : Int → List (Int × LuaObject) → Except Bytes (List LuaObject)
  | _, [] => .ok []
  | expected, (index, value) :: rest =>
      if index ≠ expected then .error (context ++ bytes " must be contiguous and start at index 1.")
      else (contiguousValues context (expected + 1) rest).map (value :: ·)

def readIndexedEntry (context : Bytes) (entry : LuaObject × LuaObject) : Except Bytes (Int × LuaObject) :=
  match entry.1.index? with
  | none => .error (context ++ bytes " must be an array-style table.")
  | some index =>
      if index < 1 then .error (context ++ bytes " must be an array-style table.") else .ok (index, entry.2)

def readArrayTable (entries : LuaEntries) (context : Bytes) : Except Bytes (List LuaObject) := do
  let indexed ← entries.mapM (readIndexedEntry context)
  contiguousValues context 1 (indexed.mergeSort fun left right => decide (left.1 ≤ right.1))

/-! ## Actions -/

def actionTypeName : ExecRuleActionType → String
  | .send => "send"
  | .state => "state"
  | .log => "log"
  | .status => "status"
  | .progress => "progress"
  | .beginStep => "begin_step"
  | .success => "success"
  | .failed => "failed"
  | .event => "event"
  | .artifact => "artifact"

/-- In the order of `parse_action_type`. -/
def actionTypes : List ExecRuleActionType :=
  [.send, .state, .log, .status, .progress, .beginStep, .success, .failed, .event, .artifact]

def parseActionType (name : Bytes) : Except Bytes ExecRuleActionType :=
  match actionTypes.find? fun type => toLowerCopy name == bytes (actionTypeName type) with
  | some type => .ok type
  | none => .error (bytes "action type '" ++ name ++ bytes "' is unknown.")

def hasRequiredField (action : ExecRuleAction) (name : String) : Bool := (action.fields.lookup (bytes name)).isSome

def requireField (action : ExecRuleAction) (name message : String) : Except Bytes Unit :=
  if hasRequiredField action name then .ok () else .error (bytes message)

def validateActionFields (action : ExecRuleAction) : Except Bytes Unit :=
  match action.type with
  | .send | .state => requireField action "value" "action requires field 'value'."
  | .log => requireField action "message" "log action requires field 'message'."
  | .status => requireField action "code" "status action requires field 'code'."
  | .progress =>
      if !hasRequiredField action "percent" && !hasRequiredField action "current" &&
          !hasRequiredField action "total" && !hasRequiredField action "speed" then
        .error (bytes "progress action requires field 'percent', 'current', 'total', or 'speed'.")
      else .ok ()
  | .beginStep => requireField action "label" "begin_step action requires field 'label'."
  | .failed => requireField action "message" "failed action requires field 'message'."
  | .event => requireField action "name" "event action requires field 'name'."
  | .artifact => requireField action "payload" "artifact action requires field 'payload'."
  | .success => .ok ()

/-- What one entry of an action's table is read as. -/
inductive ActionPart
  | type (type : ExecRuleActionType)
  | field (name value : Bytes)
  | skipped
deriving DecidableEq, Repr

def actionContext (ruleIndex actionIndex : Nat) : Bytes :=
  bytes "rule[" ++ toDecimal ruleIndex ++ bytes "].actions[" ++ toDecimal actionIndex ++ bytes "]"

/-- `scalar_to_string` where the entry may be a field; a nil is no entry. -/
def readField (context name : Bytes) : LuaObject → Except Bytes ActionPart
  | .nil => .ok .skipped
  | .boolean value => .ok (.field name (bytes (if value then "true" else "false")))
  | .number _ text => .ok (.field name text)
  | .string value => .ok (.field name value)
  | .table _ | .foreign =>
      .error (context ++ bytes " contains unsupported nested value for field '" ++ name ++ bytes "'.")

def readActionEntry (context : Bytes) (entry : LuaObject × LuaObject) : Except Bytes ActionPart :=
  match entry.1.text? with
  | none => .error (context ++ bytes " keys must be strings.")
  | some name =>
      if name = bytes "type" then
        match entry.2.text? with
        | none => .error (context ++ bytes ".type must be a string.")
        | some value => (parseActionType value).map .type
      else readField context name entry.2

structure ActionDraft where
  type : Option ExecRuleActionType := none
  fields : List (Bytes × Bytes) := []

/-- `fields[name] = value`. -/
def setField (fields : List (Bytes × Bytes)) (name value : Bytes) : List (Bytes × Bytes) :=
  fields.filter (fun field => field.1 != name) ++ [(name, value)]

def ActionDraft.add (draft : ActionDraft) : ActionPart → ActionDraft
  | .type type => { draft with type := some type }
  | .field name value => { draft with fields := setField draft.fields name value }
  | .skipped => draft

def ActionDraft.finish (context : Bytes) (draft : ActionDraft) : Except Bytes ExecRuleAction :=
  match draft.type with
  | none => .error (context ++ bytes " is missing field 'type'.")
  | some type =>
      match validateActionFields ⟨type, draft.fields⟩ with
      | .ok () => .ok ⟨type, draft.fields⟩
      | .error message => .error (context ++ bytes ": " ++ message)

def parseAction (ruleIndex actionIndex : Nat) : LuaObject → Except Bytes ExecRuleAction
  | .table entries => do
      let context := actionContext ruleIndex actionIndex
      let draft ← entries.foldlM (fun draft entry => (readActionEntry context entry).map draft.add) ({} : ActionDraft)
      draft.finish context
  | _ => .error (actionContext ruleIndex actionIndex ++ bytes " must be a table.")

/-! ## Rules -/

inductive RulePart
  | state (name : Bytes)
  | source (source : ExecRuleSource)
  | regex (text : Bytes)
  | actions (actions : List ExecRuleAction)
  | repeats (value : Bool)
  | stop (value : Bool)
deriving DecidableEq, Repr

def ruleContext (ruleIndex : Nat) : Bytes := bytes "rules.rules[" ++ toDecimal ruleIndex ++ bytes "]"

def parseSource (context value : Bytes) : Except Bytes ExecRuleSource :=
  if toLowerCopy value = bytes "line" then .ok .line
  else if toLowerCopy value = bytes "screen" then .ok .screen
  else .error (context ++ bytes ".source must be 'line' or 'screen'.")

def parseActions (ruleIndex : Nat) : LuaObject → Except Bytes (List ExecRuleAction)
  | .table entries => do
      let context := ruleContext ruleIndex ++ bytes ".actions"
      let actionObjects ← readArrayTable entries context
      if actionObjects.isEmpty then .error (context ++ bytes " must not be empty.")
      else (actionObjects.zipIdx 1).mapM fun object => parseAction ruleIndex object.2 object.1
  | _ => .error (ruleContext ruleIndex ++ bytes ".actions must be an array-style table.")

/-- A rule's flag: `repeat` or `stop`. -/
def readFlag (context : Bytes) (name : String) : LuaObject → Except Bytes Bool
  | .boolean value => .ok value
  | _ => .error (context ++ bytes "." ++ bytes name ++ bytes " must be a boolean.")

def readText (context : Bytes) (name : String) (value : LuaObject) : Except Bytes Bytes :=
  match value.text? with
  | some text => .ok text
  | none => .error (context ++ bytes "." ++ bytes name ++ bytes " must be a string.")

section Rules

-- `std::regex` with the text of a regular expression, or what it throws
variable (compile : Bytes → Except Bytes Unit)

def parseRegex (context text : Bytes) : Except Bytes Bytes :=
  match compile text with
  | .ok () => .ok text
  | .error message => .error (context ++ bytes ".regex failed to compile: " ++ message)

def readRuleEntry (ruleIndex : Nat) (entry : LuaObject × LuaObject) : Except Bytes RulePart :=
  let context := ruleContext ruleIndex
  match entry.1.text? with
  | none => .error (context ++ bytes " keys must be strings.")
  | some name =>
      if name = bytes "state" then (readText context "state" entry.2).map .state
      else if name = bytes "source" then (readText context "source" entry.2 >>= parseSource context).map .source
      else if name = bytes "regex" then (readText context "regex" entry.2 >>= parseRegex compile context).map .regex
      else if name = bytes "actions" then (parseActions ruleIndex entry.2).map .actions
      else if name = bytes "repeat" then (readFlag context "repeat" entry.2).map .repeats
      else if name = bytes "stop" then (readFlag context "stop" entry.2).map .stop
      else .error (context ++ bytes " contains unknown key '" ++ name ++ bytes "'.")

@[ext]
structure RuleDraft where
  state : Option Bytes := none
  source : Option ExecRuleSource := none
  regexText : Option Bytes := none
  actions : Option (List ExecRuleAction) := none
  repeats : Bool := true
  stop : Bool := false
  requiresPty : Bool := false

def sends (actions : List ExecRuleAction) : Bool := actions.any (·.type == .send)

def RuleDraft.add (draft : RuleDraft) : RulePart → RuleDraft
  | .state name => { draft with state := some name }
  | .source source => { draft with source := some source, requiresPty := draft.requiresPty || source == .screen }
  | .regex text => { draft with regexText := some text }
  | .actions actions => { draft with actions := some actions, requiresPty := draft.requiresPty || sends actions }
  | .repeats value => { draft with repeats := value }
  | .stop value => { draft with stop := value }

/-- The rule and whether it requires a terminal. -/
def RuleDraft.finish (context : Bytes) (draft : RuleDraft) : Except Bytes (ExecRule × Bool) :=
  match draft.source, draft.regexText, draft.actions with
  | none, _, _ => .error (context ++ bytes " is missing field 'source'.")
  | some _, none, _ => .error (context ++ bytes " is missing field 'regex'.")
  | some _, some _, none => .error (context ++ bytes " is missing field 'actions'.")
  | some source, some regexText, some actions =>
      .ok (⟨draft.state, source, regexText, actions, draft.repeats, draft.stop⟩, draft.requiresPty)

def parseRule (ruleIndex : Nat) : LuaObject → Except Bytes (ExecRule × Bool)
  | .table entries => do
      let draft ← entries.foldlM (fun draft entry => (readRuleEntry compile ruleIndex entry).map draft.add) ({} : RuleDraft)
      draft.finish (ruleContext ruleIndex)
  | _ => .error (ruleContext ruleIndex ++ bytes " must be a table.")

/-! ## Rulesets -/

/-- A ruleset with its field `requiresPty`. -/
structure ParsedRuleset where
  ruleset : ExecRuleset
  requiresPty : Bool

inductive RulesetPart
  | initial (state : Bytes)
  | rules (value : LuaObject)

def readRulesetEntry (entry : LuaObject × LuaObject) : Except Bytes RulesetPart :=
  match entry.1.text? with
  | none => .error (bytes "rules top-level keys must be strings.")
  | some name =>
      if name = bytes "initial" then (readText (bytes "rules") "initial" entry.2).map .initial
      else if name = bytes "rules" then .ok (.rules entry.2)
      else .error (bytes "rules contains unknown top-level key '" ++ name ++ bytes "'.")

structure RulesetDraft where
  initialState : Bytes := bytes "default"
  rules : Option LuaObject := none

def RulesetDraft.add (draft : RulesetDraft) : RulesetPart → RulesetDraft
  | .initial state => { draft with initialState := state }
  | .rules value => { draft with rules := some value }

def RulesetDraft.finish (draft : RulesetDraft) : Except Bytes ParsedRuleset :=
  match draft.rules with
  | some (.table ruleEntries) => do
      let ruleObjects ← readArrayTable ruleEntries (bytes "rules.rules")
      let rules ← (ruleObjects.zipIdx 1).mapM fun object => parseRule compile object.2 object.1
      .ok ⟨⟨draft.initialState, rules.map Prod.fst⟩, rules.any Prod.snd⟩
  | _ => .error (bytes "rules.rules must be an array-style table.")

def parseExecRules : LuaObject → Except Bytes ParsedRuleset
  | .table entries => do
      let draft ← entries.foldlM (fun draft entry => (readRulesetEntry entry).map draft.add) ({} : RulesetDraft)
      draft.finish compile
  | _ => .error (bytes "rules must be a table.")

end Rules

inductive ExecRuleRunnerMode
  | plain
  | line
  | pty
deriving DecidableEq, Repr

def determineExecRuleRunnerMode (parsed : ParsedRuleset) : ExecRuleRunnerMode :=
  if parsed.ruleset.rules.isEmpty then .plain else if parsed.requiresPty then .pty else .line

end ReqPack.PluginHost
