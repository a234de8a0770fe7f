import ReqPack.PluginHost.ExecutionPolicy
import ReqPack.PluginHost.PlainLists

/-! # The paths a command list writes

Redirections and the commands that make, touch, remove, copy and move files.  What the
shell writes is compared with what the policy records.
-/

namespace ReqPack.PluginHost

open ReqPack.Data ReqPack.Data.Ascii

section Operands

/-- The operands among the arguments of a utility: options begin with `-`, a single `-` is no
option, and behind `--` there are none. -/
def shellOperands : List Bytes → List Bytes
  | [] => []
  | argument :: rest =>
      if argument = bytes "--" then rest
      else if isOptionToken argument && argument ≠ bytes "-" then shellOperands rest
      else argument :: shellOperands rest

/-- The operands the utility writes. -/
def writtenOperands (name : Bytes) (arguments : List Bytes) : List Bytes :=
  if name = bytes "mkdir" || name = bytes "touch" || name = bytes "rm" then shellOperands arguments
  else if name = bytes "cp" || name = bytes "mv" then (shellOperands arguments).getLast?.toList
  else []

/-- What a simple command writes, as the shell passes it on. -/
inductive CommandWrites (command : List Element) : Bytes → Prop
  | redirected {path : Bytes} : path ∈ command.filterMap Element.target? → CommandWrites command path
  | operand {word : ShellWord} {arguments : List ShellWord} {path : Bytes} :
      shellCommand command = word :: arguments →
      path ∈ writtenOperands (pathFilename (wordValue word)) (arguments.map wordValue) → CommandWrites command path

def ShellWrites (elements : List Element) (path : Bytes) : Prop :=
  ∃ command ∈ simpleCommands elements, CommandWrites command path

/-- Every path the shell writes is recorded, and the command is denied where no scope holds the
path and it is no sink. -/
structure TargetsDetected (elements : List Element) : Prop where
  recorded : ∀ path, ShellWrites elements path → path ∈ (inspectShellCommand (commandText elements)).writeTargets
  denied : ∀ path, ShellWrites elements path → ∀ (env : ExecutionEnvironment) (metadata : PluginSecurityMetadata)
    (pluginId pluginDirectory : Bytes) (runtimeWriteRoots : List (LexicalPath Bytes)),
    targetInScope env metadata pluginDirectory runtimeWriteRoots path = false →
    (targetPathOf env pluginDirectory path).isEmpty = false →
    isSafeRedirectionSink (targetPathOf env pluginDirectory path) = false →
      (validate env metadata pluginId pluginDirectory (commandText elements) runtimeWriteRoots).isSome = true

/-- No operand looks like an option. -/
def OperandsPlain (elements : List Element) : Prop :=
  ∀ command ∈ simpleCommands elements, ∀ word arguments, shellCommand command = word :: arguments →
    ∀ operand ∈ shellOperands (arguments.map wordValue), isOptionToken operand = false

theorem operandsOf_plain {arguments : List Bytes}
    (plain : ∀ operand ∈ shellOperands arguments, isOptionToken operand = false) :
    operandsOf arguments = shellOperands arguments := by
  induction arguments with
  | nil => rfl
  | cons argument rest ih =>
      rw [shellOperands] at plain ⊢
      split at plain
      · rename_i ends
        rw [if_pos ends]
        have isOption : isOptionToken argument = true := by
          rw [ends]
          decide +kernel
        rw [operandsOf, List.filter_cons_of_neg (by simp [isOption]), List.filter_eq_self]
        exact fun operand member => by simp [plain operand member]
      · rename_i goesOn
        rw [if_neg goesOn]
        split at plain
        · rename_i isOption
          rw [if_pos isOption, ← ih plain, operandsOf, List.filter_cons_of_neg (by simp [(Bool.and_eq_true_iff.mp isOption).1])]
          rfl
        · rename_i isOperand
          have noOption := plain argument (by simp)
          rw [if_neg isOperand, ← ih fun operand member => plain operand (List.mem_cons_of_mem _ member), operandsOf,
            List.filter_cons_of_pos (by simp [noOption])]
          rfl

/-- The names of the utilities that write. -/
def isWriterName (name : Bytes) : Bool :=
  [bytes "mkdir", bytes "touch", bytes "rm", bytes "cp", bytes "mv"].contains name

theorem writer_of_mem {name path : Bytes} {arguments : List Bytes} (member : path ∈ writtenOperands name arguments) :
    isWriterName name = true := by
  unfold writtenOperands at member
  split at member
  · rename_i isName
    simp only [Bool.or_eq_true, decide_eq_true_eq] at isName
    rcases isName with (rfl | rfl) | rfl <;> decide +kernel
  split at member
  · rename_i isName
    simp only [Bool.or_eq_true, decide_eq_true_eq] at isName
    rcases isName with rfl | rfl <;> decide +kernel
  · cases member

/-- What holds of the five names. -/
theorem writer_name {name : Bytes} (writes : isWriterName name = true) :
    equalsSign ∉ name ∧ toLowerCopy name = name ∧ name ≠ bytes "env" ∧ requestsPrivilegeName name = false := by
  simp only [isWriterName, List.contains_iff_mem, List.mem_cons, List.not_mem_nil, or_false] at writes
  rcases writes with rfl | rfl | rfl | rfl | rfl <;> decide +kernel

theorem operandTargets_plain {name path : Bytes} {arguments : List Bytes}
    (plain : ∀ operand ∈ shellOperands arguments, isOptionToken operand = false)
    (present : ∀ argument ∈ arguments, argument ≠ []) (member : path ∈ writtenOperands name arguments) :
    path ∈ operandTargets name arguments := by
  have same := operandsOf_plain plain
  unfold writtenOperands at member
  unfold operandTargets
  split at member
  · rename_i isName
    rwa [if_pos isName, same]
  · rename_i notName
    rw [if_neg notName]
    split at member
    · rename_i isName
      rw [if_pos isName, same]
      rw [Option.mem_toList] at member
      have inOperands : path ∈ operandsOf arguments := same ▸ List.mem_of_getLast? member
      have notEmpty : path ≠ [] := present path (List.mem_of_mem_filter inOperands)
      simp [Option.mem_def.mp member, notEmpty]
    · cases member

end Operands

section Detected

variable {elements : List Element}

theorem target_exposed_plain (legible : Legible elements) (plain : ∀ element ∈ elements, PlainElement element)
    (operands : OperandsPlain elements) {path : Bytes} (writes : ShellWrites elements path) :
    TargetExposed (readTokens elements) path := by
  obtain ⟨command, member, writes⟩ := writes
  have inList := mem_of_mem_splitOnP member
  have commandPlain : ∀ element ∈ command, PlainElement element := fun element inside => plain element (inList element inside).1
  have parts := segmentParts_plain (fun element inside => legible.wellFormed element (inList element inside).1)
    commandPlain fun element inside => (inList element inside).2
  refine ⟨command.flatMap Element.tokens, ?_, ?_⟩
  · rw [segments_plain legible plain]
    exact List.mem_map_of_mem member
  · rw [parts]
    cases writes with
    | redirected target => exact Or.inl target
    | @operand word arguments _ found written =>
        obtain ⟨noSign, lower, noEnv, noRequest⟩ := writer_name (writer_of_mem written)
        obtain ⟨before, split, leads, basename⟩ := leads_plain commandPlain found rfl noSign lower noEnv
        have direct : WritingCommand (before ++ wordValue word :: arguments.map wordValue)
            (commandBasename (wordValue word)) (arguments.map wordValue) := .direct leads (by rw [basename]; exact noRequest)
        refine Or.inr ⟨_, _, split ▸ direct, ?_⟩
        rw [basename]
        refine operandTargets_plain (operands command member word arguments found) ?_ written
        intro value isArgument
        obtain ⟨argument, inArguments, rfl⟩ := List.mem_map.mp isArgument
        have inWords : argument ∈ wordsOf command :=
          (List.dropWhile_sublist _).subset (found ▸ List.mem_cons_of_mem _ inArguments)
        obtain ⟨element, inCommand, isWord⟩ := List.mem_filterMap.mp inWords
        cases element with
        | word fragments =>
            cases isWord
            exact (commandPlain _ inCommand).present
        | _ => cases isWord

theorem detected_of_recorded
    (recorded : ∀ path, ShellWrites elements path → path ∈ (inspectShellCommand (commandText elements)).writeTargets) :
    TargetsDetected elements where
  recorded := recorded
  denied path writes env metadata pluginId pluginDirectory roots outside present noSink := by
    refine validate_target (recorded path writes) ?_
    simp only [targetAllowed, outside, present, noSink, Bool.or_false]

/-- Write targets are detected if and only if each of them stands behind a redirection or a writing
command as the policy reads the list; in plain lists whose operands are no options they are. -/
theorem targets_detected_iff (elements : List Element) (legible : Legible elements) :
    (TargetsDetected elements ↔ ∀ path, ShellWrites elements path → TargetExposed (readTokens elements) path) ∧
      ((∀ element ∈ elements, PlainElement element) → OperandsPlain elements → TargetsDetected elements) := by
  have recorded_iff : ∀ path, path ∈ (inspectShellCommand (commandText elements)).writeTargets ↔
      TargetExposed (readTokens elements) path := by
    intro path
    rw [mem_writeTargets_iff, tokenizeShellCommand_text legible]
  refine ⟨⟨fun detected path writes => ?_, fun exposed => ?_⟩, fun plain operands => ?_⟩
  · exact (recorded_iff path).mp (detected.recorded path writes)
  · exact detected_of_recorded fun path writes => (recorded_iff path).mpr (exposed path writes)
  · exact detected_of_recorded fun path writes =>
      (recorded_iff path).mpr (target_exposed_plain legible plain operands writes)

/-- `rm a>b`. -/
theorem targets_detected_plain :
    TargetsDetected [.word [.literal (bytes "rm")], .blank false, .word [.literal (bytes "a")],
      .redirect [] .output [] (bytes "b")] := by
  refine (targets_detected_iff _ ⟨?_, ?_⟩).2 ?_ ?_
  · simp only [List.forall_mem_cons]
    refine ⟨?_, trivial, ?_, ?_, by simp⟩
    · exact literal_word (isLiteral_of_all (by decide +kernel) (by decide +kernel))
    · exact literal_word (isLiteral_of_all (by decide +kernel) (by decide +kernel))
    · exact ⟨rfl, by simp, isLiteral_of_all (by decide +kernel) (by decide +kernel)⟩
  · simp only [List.isChain_cons_cons, List.isChain_singleton, and_true]
    exact ⟨trivial, trivial, rfl, Or.inr (by decide +kernel)⟩
  · simp only [List.forall_mem_cons]
    refine ⟨?_, trivial, ?_, ?_, by simp⟩
    · exact plain_literal (by decide +kernel) (by decide +kernel) (by decide +kernel) (by decide +kernel) (by decide +kernel)
    · exact plain_literal (by decide +kernel) (by decide +kernel) (by decide +kernel) (by decide +kernel) (by decide +kernel)
    · exact ⟨Or.inl rfl, List.forall_mem_singleton.mpr (by decide +kernel)⟩
  · intro command member word arguments found operand isOperand
    have single : command = [.word [.literal (bytes "rm")], .blank false, .word [.literal (bytes "a")],
        .redirect [] .output [] (bytes "b")] := List.mem_singleton.mp member
    subst single
    cases found
    have isA : operand ∈ [bytes "a"] := isOperand
    rw [List.mem_singleton.mp isA]
    decide +kernel

/-- `echo >| /etc/passwd`. -/
def clobberList : List Element :=
  [.word [.literal (bytes "echo")], .blank false, .redirect [] .clobber [false] (bytes "/etc/passwd")]

/-- The `|` of `>|` ends the command for the policy, and the target is the name of the next one. -/
theorem clobber_hides_target :
    Legible clobberList ∧ ShellWrites clobberList (bytes "/etc/passwd") ∧
      (inspectShellCommand (commandText clobberList)).writeTargets = [] ∧
      validate { currentPath := none, tempDirectory := {}, cacheDirectory := {}, home := none }
        { capabilities := [bytes "exec"] } (bytes "apt") (bytes "/opt/plugin") (commandText clobberList) [] = none ∧
      ¬ TargetsDetected clobberList := by
  have writes : ShellWrites clobberList (bytes "/etc/passwd") := by
    refine ⟨clobberList, by decide +kernel, .redirected ?_⟩
    simp [clobberList, Element.target?]
  have hidden : (inspectShellCommand (commandText clobberList)).writeTargets = [] := by decide +kernel
  refine ⟨⟨?_, by simp [clobberList, Apart]⟩, writes, hidden, by decide +kernel, fun detected => ?_⟩
  · simp only [clobberList, List.forall_mem_cons]
    refine ⟨?_, trivial, ?_, by simp⟩
    · exact literal_word (isLiteral_of_all (by decide +kernel) (by decide +kernel))
    · exact ⟨rfl, by simp, isLiteral_of_all (by decide +kernel) (by decide +kernel)⟩
  · have recorded := detected.recorded _ writes
    rw [hidden] at recorded
    cases recorded

end Detected

end ReqPack.PluginHost
