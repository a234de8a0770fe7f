import ReqPack.Data.Lists
import ReqPack.PluginHost.ShellText

/-! # Two readings of a command list

The shell cuts a list into simple commands at every separator.  The policy cuts the tokens
at those it knows as boundaries, and looks for the name of each command.
-/

namespace ReqPack.PluginHost

open ReqPack.Data ReqPack.Data.Ascii

/-! ## The shell -/

section Shell

def isNameByte (c : UInt8) : Bool := isAlnum c || c = 95

/-- `NAME=value` before a command; the name and the sign are not quoted. -/
def isAssignmentWord : ShellWord → Bool
  | .literal text :: _ =>
      let name := text.takeWhile (· != equalsSign)
      text.contains equalsSign && !name.isEmpty && name.all isNameByte && !name.head?.any isDigit
  | _ => false

def Element.isSeparator : Element → Bool
  | .separator _ => true
  | _ => false

def Element.word? : Element → Option ShellWord
  | .word fragments => some fragments
  | _ => none

def Element.target? : Element → Option Bytes
  | .redirect _ _ _ target => some target
  | _ => none

def simpleCommands (elements : List Element) : List (List Element) := elements.splitOnP Element.isSeparator

/-- The words of a command, its redirections apart. -/
def wordsOf (command : List Element) : List ShellWord := command.filterMap Element.word?

/-- The command word, behind the assignments, and its arguments. -/
def shellCommand (command : List Element) : List ShellWord := (wordsOf command).dropWhile isAssignmentWord

end Shell

/-! ## The policy -/

section Policy

/-- Where the policy looks for the name of a command: behind assignments, or behind `env` with
options and assignments of its own. -/
inductive LeadsCommand : List Bytes → Bytes → Prop
  | assignments {words : List Bytes} {word : Bytes} : (∀ other ∈ words, isAssignmentToken other = true) →
      isAssignmentToken word = false → commandBasename word ≠ bytes "env" → LeadsCommand words word
  | env {words options : List Bytes} {env word : Bytes} : (∀ other ∈ words, isAssignmentToken other = true) →
      isAssignmentToken env = false → commandBasename env = bytes "env" →
      (∀ other ∈ options, (isOptionToken other || isAssignmentToken other) = true) →
      (isOptionToken word || isAssignmentToken word) = false → LeadsCommand (words ++ env :: options) word

theorem takeWhile_all {p : Bytes → Bool} {words : List Bytes} : ∀ word ∈ words.takeWhile p, p word = true :=
  fun _ member => List.mem_takeWhile_imp member

/-- A list is its beginning that passes a test, and what begins with the first that fails. -/
theorem dropWhile_cons_split {p : Bytes → Bool} {words rest : List Bytes} {word : Bytes}
    (found : words.dropWhile p = word :: rest) : words = words.takeWhile p ++ word :: rest ∧ p word = false := by
  refine ⟨by rw [← found, List.takeWhile_append_dropWhile], ?_⟩
  have fails := List.head?_dropWhile_not p words
  rw [found] at fails
  simpa using fails

theorem dropWhile_of_all {p : Bytes → Bool} {front rest : List Bytes} {word : Bytes} (all : ∀ other ∈ front, p other = true)
    (fails : p word = false) : (front ++ word :: rest).dropWhile p = word :: rest := by
  rw [List.dropWhile_append_of_pos all, List.dropWhile_cons_of_neg (by simp [fails])]

theorem commandAt_iff {words operands : List Bytes} {commandName : Bytes} :
    commandAt words = some (commandName, operands) ↔
      ∃ before word, words = before ++ word :: operands ∧ LeadsCommand before word ∧ commandBasename word = commandName := by
  constructor
  · intro found
    unfold commandAt at found
    cases behind : words.dropWhile isAssignmentToken with
    | nil => simp [behind] at found
    | cons word rest =>
        obtain ⟨split, noAssignment⟩ := dropWhile_cons_split behind
        simp only [behind] at found
        split at found
        · rename_i isEnv
          cases inner : rest.dropWhile fun operand => isOptionToken operand || isAssignmentToken operand with
          | nil => simp [inner] at found
          | cons innerWord innerRest =>
              obtain ⟨innerSplit, noOption⟩ := dropWhile_cons_split inner
              simp only [inner, Option.some.injEq, Prod.mk.injEq] at found
              obtain ⟨rfl, rfl⟩ := found
              let options := rest.takeWhile fun operand => isOptionToken operand || isAssignmentToken operand
              refine ⟨words.takeWhile isAssignmentToken ++ word :: options, innerWord, ?_,
                .env takeWhile_all noAssignment isEnv takeWhile_all noOption, rfl⟩
              rw [List.append_assoc, List.cons_append, ← innerSplit]
              exact split
        · rename_i noEnv
          simp only [Option.some.injEq, Prod.mk.injEq] at found
          obtain ⟨rfl, rfl⟩ := found
          exact ⟨_, word, split, .assignments takeWhile_all noAssignment noEnv, rfl⟩
  · rintro ⟨before, word, rfl, leads, rfl⟩
    unfold commandAt
    cases leads with
    | assignments all noAssignment noEnv => simp only [dropWhile_of_all all noAssignment, if_neg noEnv]
    | env all noAssignment isEnv options noOption =>
        rw [List.append_assoc, List.cons_append, dropWhile_of_all all noAssignment]
        simp only [if_pos isEnv, dropWhile_of_all options noOption]

/-- The command that writes, behind `sudo` and its options if they come first. -/
inductive WritingCommand : List Bytes → Bytes → List Bytes → Prop
  | direct {before operands : List Bytes} {word : Bytes} : LeadsCommand before word →
      requestsPrivilegeName (commandBasename word) = false →
      WritingCommand (before ++ word :: operands) (commandBasename word) operands
  | privileged {before options operands : List Bytes} {word inner : Bytes} : LeadsCommand before word →
      requestsPrivilegeName (commandBasename word) = true → (∀ option ∈ options, isOptionToken option = true) →
      isOptionToken inner = false →
      WritingCommand (before ++ word :: (options ++ inner :: operands)) (commandBasename inner) operands

/-- Some word that the policy takes for the name of a command is `sudo` or `doas`. -/
def PrivilegeExposed (tokens : List Bytes) : Prop :=
  ∃ segment ∈ tokens.splitOnP isCommandBoundaryToken, ∃ before word after,
    (segmentParts segment).2 = before ++ word :: after ∧ LeadsCommand before word ∧
      requestsPrivilegeName (commandBasename word) = true

/-- The path stands behind a redirection, or a command that the policy knows writes it. -/
def TargetExposed (tokens : List Bytes) (path : Bytes) : Prop :=
  ∃ segment ∈ tokens.splitOnP isCommandBoundaryToken,
    path ∈ (segmentParts segment).1 ∨
      ∃ commandName operands, WritingCommand (segmentParts segment).2 commandName operands ∧
        path ∈ operandTargets commandName operands

variable {words : List Bytes} {inspection : ShellCommandInspection}

theorem collect_requestsPrivilege :
    (collectWriteTargetsFromCommandWords words inspection).requestsPrivilege =
      (inspection.requestsPrivilege || (commandAt words).any fun found => requestsPrivilegeName found.1) := by
  unfold collectWriteTargetsFromCommandWords
  cases found : commandAt words with
  | none => simp
  | some command =>
      obtain ⟨commandName, operands⟩ := command
      cases requests : requestsPrivilegeName commandName with
      | true =>
          simp only [requests, if_true, Option.any_some, Bool.or_true]
          split <;> rfl
      | false => simp [requests]

/-- What the words of one command add. -/
def commandTargets (words : List Bytes) : List Bytes :=
  match commandAt words with
  | none => []
  | some (commandName, operands) =>
      if requestsPrivilegeName commandName then
        match operands.dropWhile isOptionToken with
        | [] => []
        | inner :: rest => operandTargets (commandBasename inner) rest
      else operandTargets commandName operands

theorem collect_writeTargets :
    (collectWriteTargetsFromCommandWords words inspection).writeTargets =
      inspection.writeTargets ++ commandTargets words := by
  unfold collectWriteTargetsFromCommandWords commandTargets
  cases found : commandAt words with
  | none => simp
  | some command =>
      obtain ⟨commandName, operands⟩ := command
      cases requests : requestsPrivilegeName commandName with
      | true =>
          simp only [requests, if_true]
          cases operands.dropWhile isOptionToken with
          | nil => simp
          | cons inner rest => rfl
      | false => simp [requests]

theorem mem_commandTargets_iff {path : Bytes} :
    path ∈ commandTargets words ↔
      ∃ commandName operands, WritingCommand words commandName operands ∧ path ∈ operandTargets commandName operands := by
  constructor
  · intro member
    unfold commandTargets at member
    cases found : commandAt words with
    | none => simp [found] at member
    | some command =>
        obtain ⟨commandName, operands⟩ := command
        obtain ⟨before, word, rfl, leads, rfl⟩ := commandAt_iff.1 found
        cases requests : requestsPrivilegeName (commandBasename word) with
        | false =>
            simp only [found, requests, Bool.false_eq_true, if_false] at member
            exact ⟨_, operands, .direct leads requests, member⟩
        | true =>
            simp only [found, requests, if_true] at member
            cases behind : operands.dropWhile isOptionToken with
            | nil => simp [behind] at member
            | cons inner rest =>
                obtain ⟨split, noOption⟩ := dropWhile_cons_split behind
                simp only [behind] at member
                rw [split]
                exact ⟨_, rest, .privileged leads requests takeWhile_all noOption, member⟩
  · rintro ⟨commandName, operands, writing, member⟩
    unfold commandTargets
    cases writing with
    | @direct before _ word leads requests =>
        rw [commandAt_iff.2 ⟨before, word, rfl, leads, rfl⟩]
        simpa [requests] using member
    | @privileged before options _ word inner leads requests all noOption =>
        rw [commandAt_iff.2 ⟨before, word, rfl, leads, rfl⟩]
        simpa [requests, dropWhile_of_all all noOption] using member

theorem inspectSegments_requestsPrivilege (segments : List (List Bytes)) :
    (segments.foldl inspectSegment inspection).requestsPrivilege =
      (inspection.requestsPrivilege ||
        segments.any fun segment => (commandAt (segmentParts segment).2).any fun found => requestsPrivilegeName found.1) := by
  induction segments generalizing inspection with
  | nil => simp
  | cons segment segments ih =>
      rw [List.foldl_cons, ih, List.any_cons, ← Bool.or_assoc]
      congr 1
      exact collect_requestsPrivilege

theorem inspectSegments_writeTargets (segments : List (List Bytes)) :
    (segments.foldl inspectSegment inspection).writeTargets =
      inspection.writeTargets ++
        segments.flatMap fun segment => (segmentParts segment).1 ++ commandTargets (segmentParts segment).2 := by
  induction segments generalizing inspection with
  | nil => simp
  | cons segment segments ih =>
      rw [List.foldl_cons, ih, List.flatMap_cons, ← List.append_assoc]
      congr 1
      rw [inspectSegment, collect_writeTargets, List.append_assoc]

theorem requestsPrivilege_iff {command : Bytes} :
    (inspectShellCommand command).requestsPrivilege = true ↔ PrivilegeExposed (tokenizeShellCommand command) := by
  rw [inspectShellCommand, inspectSegments_requestsPrivilege]
  simp only [Bool.false_or, List.any_eq_true, Option.any_eq_true, Prod.exists, PrivilegeExposed]
  constructor
  · rintro ⟨segment, member, commandName, operands, found, requests⟩
    obtain ⟨before, word, split, leads, rfl⟩ := commandAt_iff.1 found
    exact ⟨segment, member, before, word, operands, split, leads, requests⟩
  · rintro ⟨segment, member, before, word, operands, split, leads, requests⟩
    exact ⟨segment, member, _, operands, commandAt_iff.2 ⟨before, word, split, leads, rfl⟩, requests⟩

theorem mem_writeTargets_iff {command path : Bytes} :
    path ∈ (inspectShellCommand command).writeTargets ↔ TargetExposed (tokenizeShellCommand command) path := by
  rw [inspectShellCommand, inspectSegments_writeTargets]
  simp only [List.nil_append, List.mem_flatMap, List.mem_append, mem_commandTargets_iff, TargetExposed]

theorem segmentParts_subset (segment : List Bytes) :
    (∀ target ∈ (segmentParts segment).1, target ∈ segment) ∧ ∀ word ∈ (segmentParts segment).2, word ∈ segment := by
  induction segment using segmentParts.induct with
  | case1 => simp [segmentParts]
  | case2 token operator => simp [segmentParts, operator]
  | case3 token noOperator => simp [segmentParts, noOperator]
  | case4 token next rest operator ih =>
      simp only [segmentParts, operator, if_true]
      refine ⟨fun target member => ?_, fun word member => by simp [ih.2 word member]⟩
      rcases List.mem_append.mp member with here | later
      · split at here
        · cases here
        · simp [List.mem_singleton.mp here]
      · simp [ih.1 target later]
  | case5 token next rest noOperator ih =>
      rw [segmentParts, if_neg noOperator]
      refine ⟨fun target member => List.mem_cons_of_mem _ (ih.1 target member), fun word member => ?_⟩
      rcases List.mem_cons.mp member with rfl | later
      · exact List.mem_cons_self
      · exact List.mem_cons_of_mem _ (ih.2 word later)

theorem mem_operandTargets {commandName path : Bytes} {operands : List Bytes}
    (member : path ∈ operandTargets commandName operands) : path ∈ operands := by
  unfold operandTargets at member
  split at member
  · exact List.mem_of_mem_filter member
  split at member
  · cases last : (operandsOf operands).getLast? with
    | none => simp [last] at member
    | some destination =>
        have inOperands : destination ∈ operands := List.mem_of_mem_filter (List.mem_of_getLast? last)
        simp only [last, Option.getD_some] at member
        split at member
        · cases member
        · rwa [List.mem_singleton.mp member]
  · cases member

/-- A path that was recorded is a token between boundaries. -/
theorem TargetExposed.noBoundary {tokens : List Bytes} {path : Bytes} (exposed : TargetExposed tokens path) :
    isCommandBoundaryToken path = false := by
  obtain ⟨segment, member, exposed⟩ := exposed
  obtain ⟨targets, words⟩ := segmentParts_subset segment
  refine (mem_of_mem_splitOnP member path ?_).2
  rcases exposed with redirected | ⟨commandName, operands, writing, written⟩
  · exact targets path redirected
  · have operand := mem_operandTargets written
    apply words path
    generalize (segmentParts segment).2 = all at writing
    cases writing with
    | direct leads requests => simp [operand]
    | privileged leads requests options noOption => simp [operand]

end Policy

end ReqPack.PluginHost
