import ReqPack.Data.Bytes

/-! # What the execution policy reads in a shell command

The policy splits the text of a command into tokens, cuts the tokens into commands and
looks for privilege requests and for the paths that are written.  A second detector, in the
exec rules, looks for `sudo` and `doas` in the text itself.
-/

namespace ReqPack.PluginHost

open ReqPack.Data ReqPack.Data.Ascii

def ampersand : UInt8 := 38

def pipe : UInt8 := 124

def semicolon : UInt8 := 59

def greater : UInt8 := 62

def equalsSign : UInt8 := 61

structure ShellCommandInspection where
  requestsPrivilege : Bool := false
  writeTargets : List Bytes := []
deriving DecidableEq, Repr

section Tokens

def isAllDigits (value : Bytes) : Bool := !value.isEmpty && value.all isDigit

def isCommandBoundaryToken (token : Bytes) : Bool :=
  token = bytes "&&" || token = bytes "||" || token = bytes ";" || token = bytes "|"

def isFileRedirectionOperator (token : Bytes) : Bool := token.contains greater && !token.contains ampersand

def isOptionToken (token : Bytes) : Bool := token.head? == some 45

def commandBasename (token : Bytes) : Bytes := toLowerCopy (pathFilename token)

/-- The flags `inSingleQuotes`, `inDoubleQuotes` and `escaping`, of which at most one is set. -/
inductive ShellMode
  | plain
  | singleQuotes
  | doubleQuotes
  | escaping
deriving DecidableEq, Repr

structure ShellTokens where
  tokens : List Bytes := []
  current : Bytes := []
deriving DecidableEq, Repr

namespace ShellTokens

variable (state : ShellTokens)

def push (text : Bytes) : ShellTokens := { state with current := state.current ++ text }

def flush : ShellTokens :=
  if state.current.isEmpty then state else { tokens := state.tokens ++ [state.current], current := [] }

def addToken (token : Bytes) : ShellTokens := { state with tokens := state.tokens ++ [token] }

/-- Digits right before the operator belong to it. -/
def addRedirection (operator : Bytes) : ShellTokens :=
  if isAllDigits state.current then { tokens := state.tokens ++ [state.current ++ operator], current := [] }
  else state.flush.addToken operator

end ShellTokens

/-- The operator that begins with a `>` before `rest`. -/
def redirectionOperator (rest : Bytes) : Bytes :=
  let doubled := if rest.head? == some greater then [greater] else []
  let duplicated := if (rest.drop doubled.length).head? == some ampersand then [ampersand] else []
  greater :: doubled ++ duplicated

/-- The loop of `tokenize_shell_command`; `skip` bytes have been read ahead. -/
def tokenizeFrom : Nat → ShellMode → ShellTokens → Bytes → ShellTokens
  | _, _, state, [] => state.flush
  | skip + 1, mode, state, _ :: rest => tokenizeFrom skip mode state rest
  | 0, mode, state, c :: rest =>
      match mode with
      | .escaping => tokenizeFrom 0 .plain (state.push [c]) rest
      | .singleQuotes =>
          if c = singleQuote then tokenizeFrom 0 .plain state rest
          else tokenizeFrom 0 .singleQuotes (state.push [c]) rest
      | .doubleQuotes =>
          if c = doubleQuote then tokenizeFrom 0 .plain state rest
          else if c = backslash && !rest.isEmpty then tokenizeFrom 1 .doubleQuotes (state.push (rest.take 1)) rest
          else tokenizeFrom 0 .doubleQuotes (state.push [c]) rest
      | .plain =>
          if c = backslash then tokenizeFrom 0 .escaping state rest
          else if c = singleQuote then tokenizeFrom 0 .singleQuotes state rest
          else if c = doubleQuote then tokenizeFrom 0 .doubleQuotes state rest
          else if isSpace c then tokenizeFrom 0 .plain state.flush rest
          else if (c = ampersand || c = pipe) && rest.head? == some c then
            tokenizeFrom 1 .plain (state.flush.addToken [c, c]) rest
          else if c = semicolon || c = pipe then tokenizeFrom 0 .plain (state.flush.addToken [c]) rest
          else if c = greater then
            tokenizeFrom ((redirectionOperator rest).length - 1) .plain
              (state.addRedirection (redirectionOperator rest)) rest
          else tokenizeFrom 0 .plain (state.push [c]) rest

@[simp] theorem tokenizeFrom_nil (skip : Nat) (mode : ShellMode) (state : ShellTokens) :
    tokenizeFrom skip mode state [] = state.flush := by
  rw [tokenizeFrom]

def tokenizeShellCommand (command : Bytes) : List Bytes := (tokenizeFrom 0 .plain {} command).tokens

end Tokens

section Words

/-- `NAME=value` as the policy tells it. -/
def isAssignmentToken (word : Bytes) : Bool := word.contains equalsSign && !word.contains slash

/-- The command behind assignments and `env`, with the words behind it. -/
def commandAt (words : List Bytes) : Option (Bytes × List Bytes) :=
  match words.dropWhile isAssignmentToken with
  | [] => none
  | word :: operands =>
      if commandBasename word = bytes "env" then
        match operands.dropWhile fun operand => isOptionToken operand || isAssignmentToken operand with
        | [] => none
        | inner :: rest => some (commandBasename inner, rest)
      else some (commandBasename word, operands)

def requestsPrivilegeName (commandName : Bytes) : Bool := commandName = bytes "sudo" || commandName = bytes "doas"

def operandsOf (words : List Bytes) : List Bytes := words.filter fun word => !isOptionToken word

/-- The paths a command writes by its name. -/
def operandTargets (commandName : Bytes) (words : List Bytes) : List Bytes :=
  if commandName = bytes "mkdir" || commandName = bytes "touch" || commandName = bytes "rm" then operandsOf words
  else if commandName = bytes "cp" || commandName = bytes "mv" then
    let destination := (operandsOf words).getLast?.getD []
    if destination.isEmpty then [] else [destination]
  else []

def collectWriteTargetsFromCommandWords (words : List Bytes) (inspection : ShellCommandInspection) :
    ShellCommandInspection :=
  match commandAt words with
  | none => inspection
  | some (commandName, operands) =>
      if requestsPrivilegeName commandName then
        match operands.dropWhile isOptionToken with
        | [] => { inspection with requestsPrivilege := true }
        | inner :: rest =>
            { requestsPrivilege := true
              writeTargets := inspection.writeTargets ++ operandTargets (commandBasename inner) rest }
      else { inspection with writeTargets := inspection.writeTargets ++ operandTargets commandName operands }

/-- The targets of the redirections and the words of a segment; a token behind an operator
is a target whatever it is. -/
def segmentParts : List Bytes → List Bytes × List Bytes
  | [] => ([], [])
  | [token] => if isFileRedirectionOperator token then ([], []) else ([], [token])
  | token :: next :: rest =>
      if isFileRedirectionOperator token then
        ((if next.isEmpty then [] else [next]) ++ (segmentParts rest).1, (segmentParts rest).2)
      else ((segmentParts (next :: rest)).1, token :: (segmentParts (next :: rest)).2)

def inspectSegment (inspection : ShellCommandInspection) (segment : List Bytes) : ShellCommandInspection :=
  collectWriteTargetsFromCommandWords (segmentParts segment).2
    { inspection with writeTargets := inspection.writeTargets ++ (segmentParts segment).1 }

/-- Boundaries in a row leave empty segments, which add nothing. -/
def inspectShellCommand (command : Bytes) : ShellCommandInspection :=
  ((tokenizeShellCommand command).splitOnP isCommandBoundaryToken).foldl inspectSegment {}

end Words

section Detector

def isShellCommandTokenBoundary (c : UInt8) : Bool :=
  c = space || c = 9 || c = pipe || c = semicolon || c = ampersand || c = newline

/-- The search for one of the names; `previous` is the byte before the text, and `skip` bytes
belong to an occurrence that did not stand alone. -/
def findPrivilegeToken (token : Bytes) : Nat → Option UInt8 → Bytes → Bool
  | _, _, [] => false
  | skip + 1, _, c :: rest => findPrivilegeToken token skip (some c) rest
  | 0, previous, c :: rest =>
      if token.isPrefixOf (c :: rest) then
        (previous.all isShellCommandTokenBoundary &&
            ((c :: rest).drop token.length).head?.all isShellCommandTokenBoundary) ||
          findPrivilegeToken token (token.length - 1) (some c) rest
      else findPrivilegeToken token 0 (some c) rest

def shellCommandUsesPrivilegeEscalation (command : Bytes) : Bool :=
  [bytes "sudo", bytes "doas"].any fun token => findPrivilegeToken token 0 none command

end Detector

end ReqPack.PluginHost
