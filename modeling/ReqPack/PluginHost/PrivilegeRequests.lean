import ReqPack.PluginHost.ExecutionPolicy
import ReqPack.PluginHost.PlainLists

/-! # Privilege requests of a command list

A list whose commands the policy reads as the shell does cannot run `sudo` or `doas`
unseen.  Elsewhere it depends on what stands before the word as the policy reads it.
-/

namespace ReqPack.PluginHost

open ReqPack.Data ReqPack.Data.Ascii

section Detector

variable {token text : Bytes}

/-- In a text without boundaries the detector finds nothing but the text as a whole. -/
theorem findPrivilegeToken_whole (inside : ∀ c ∈ text, isShellCommandTokenBoundary c = false) {skip : Nat}
    {previous : Option UInt8} (behind : ∀ c ∈ previous, isShellCommandTokenBoundary c = false)
    (found : findPrivilegeToken token skip previous text = true) : previous = none ∧ text = token := by
  induction text generalizing skip previous with
  | nil => cases skip <;> simp [findPrivilegeToken] at found
  | cons c rest ih =>
      have restInside : ∀ other ∈ rest, isShellCommandTokenBoundary other = false :=
        fun other member => inside other (List.mem_cons_of_mem _ member)
      have notLater : ∀ later, findPrivilegeToken token later (some c) rest = true → False := by
        intro later foundLater
        have here : ∀ before ∈ some c, isShellCommandTokenBoundary before = false := by simp [inside c (by simp)]
        cases (ih restInside here foundLater).1
      cases skip with
      | succ skip => exact (notLater skip (by simpa [findPrivilegeToken] using found)).elim
      | zero =>
          rw [findPrivilegeToken] at found
          split at found
          · rename_i leads
            rcases Bool.or_eq_true_iff.mp found with here | later
            · obtain ⟨atStart, atEnd⟩ := Bool.and_eq_true_iff.mp here
              have first : previous = none := by
                cases previous with
                | none => rfl
                | some before => simp [behind before rfl] at atStart
              refine ⟨first, ?_⟩
              have ends : (c :: rest).drop token.length = [] := by
                cases left : (c :: rest).drop token.length with
                | nil => rfl
                | cons next others =>
                    have member : next ∈ c :: rest := List.mem_of_mem_drop (left ▸ List.mem_cons_self)
                    simp [left, inside next member] at atEnd
              obtain ⟨others, whole⟩ := List.isPrefixOf_iff_prefix.mp leads
              rw [← whole, List.drop_left] at ends
              rw [← whole, ends, List.append_nil]
            · exact (notLater _ later).elim
          · exact (notLater 0 found).elim

/-- A literal word that the detector recognises is one of the names it looks for. -/
theorem recognised_literal (literal : IsLiteral text) (found : shellCommandUsesPrivilegeEscalation text = true) :
    requestsPrivilegeName (pathFilename text) = true := by
  have inside : ∀ c ∈ text, isShellCommandTokenBoundary c = false := by
    intro c member
    have isLiteral := literal.2 c member
    have noSpace : c ≠ space := literal_ne isLiteral (by decide +kernel)
    have noTab : c ≠ 9 := literal_ne isLiteral (by decide +kernel)
    have noPipe : c ≠ pipe := literal_ne isLiteral (by decide +kernel)
    have noSemicolon : c ≠ semicolon := literal_ne isLiteral (by decide +kernel)
    have noAmpersand : c ≠ ampersand := literal_ne isLiteral (by decide +kernel)
    have noNewline : c ≠ newline := literal_ne isLiteral (by decide +kernel)
    simp [isShellCommandTokenBoundary, noSpace, noTab, noPipe, noSemicolon, noAmpersand, noNewline]
  simp only [shellCommandUsesPrivilegeEscalation, List.any_cons, List.any_nil, Bool.or_false, Bool.or_eq_true] at found
  rcases found with isSudo | isDoas
  · rw [(findPrivilegeToken_whole inside (by simp) isSudo).2]
    decide +kernel
  · rw [(findPrivilegeToken_whole inside (by simp) isDoas).2]
    decide +kernel

end Detector

section Requests

/-- Some simple command of the list is `sudo` or `doas`, by any path. -/
def RequestsPrivilege (elements : List Element) : Prop :=
  ∃ command ∈ simpleCommands elements, ∃ word arguments, shellCommand command = word :: arguments ∧
    requestsPrivilegeName (pathFilename (wordValue word)) = true

/-- A list that requests privileges is reported and denied; the same for a command word that the
detector of the exec rules recognises. -/
structure PrivilegeDetected (elements : List Element) : Prop where
  reported : RequestsPrivilege elements → (inspectShellCommand (commandText elements)).requestsPrivilege = true
  denied : RequestsPrivilege elements → ∀ (env : ExecutionEnvironment) (metadata : PluginSecurityMetadata)
    (pluginId pluginDirectory : Bytes) (runtimeWriteRoots : List (LexicalPath Bytes)),
    metadata.privilegeLevel ≠ bytes "sudo" →
      (validate env metadata pluginId pluginDirectory (commandText elements) runtimeWriteRoots).isSome = true
  recognised : ∀ command ∈ simpleCommands elements, ∀ text arguments,
    shellCommand command = [.literal text] :: arguments → shellCommandUsesPrivilegeEscalation text = true →
      (inspectShellCommand (commandText elements)).requestsPrivilege = true

variable {elements : List Element}

theorem shellCommand_mem {command : List Element} {word : ShellWord} {arguments : List ShellWord}
    (found : shellCommand command = word :: arguments) : Element.word word ∈ command := by
  have member : word ∈ wordsOf command := (List.dropWhile_sublist _).subset (found ▸ List.mem_cons_self)
  obtain ⟨element, inCommand, isWord⟩ := List.mem_filterMap.mp member
  cases element with
  | word fragments =>
      cases isWord
      exact inCommand
  | _ => cases isWord

theorem detected_of_reported (legible : Legible elements)
    (reported : RequestsPrivilege elements → (inspectShellCommand (commandText elements)).requestsPrivilege = true) :
    PrivilegeDetected elements where
  reported := reported
  denied requests _ _ _ _ _ level := validate_privilege (reported requests) level
  recognised command member text arguments found recognises := by
    have inList := (mem_of_mem_splitOnP member _ (shellCommand_mem found)).1
    have literal : IsLiteral text := (legible.wellFormed _ inList).2.1 (.literal text) (by simp)
    have isName := recognised_literal literal recognises
    exact reported ⟨command, member, _, arguments, found, by simpa [wordValue, Fragment.value] using isName⟩

theorem exposed_plain (legible : Legible elements) (plain : ∀ element ∈ elements, PlainElement element)
    (requests : RequestsPrivilege elements) : PrivilegeExposed (readTokens elements) := by
  obtain ⟨command, member, word, arguments, found, isName⟩ := requests
  have inList := mem_of_mem_splitOnP member
  have commandPlain : ∀ element ∈ command, PlainElement element := fun element inside => plain element (inList element inside).1
  have names : pathFilename (wordValue word) = bytes "sudo" ∨ pathFilename (wordValue word) = bytes "doas" := by
    simpa [requestsPrivilegeName] using isName
  have leads : ∃ before, (wordsOf command).map wordValue = before ++ wordValue word :: arguments.map wordValue ∧
      LeadsCommand before (wordValue word) ∧ requestsPrivilegeName (commandBasename (wordValue word)) = true := by
    rcases names with isSudo | isDoas
    · obtain ⟨before, split, leads, basename⟩ := leads_plain commandPlain found isSudo (by decide +kernel)
        (by decide +kernel) (by decide +kernel)
      exact ⟨before, split, leads, by rw [basename]; decide +kernel⟩
    · obtain ⟨before, split, leads, basename⟩ := leads_plain commandPlain found isDoas (by decide +kernel)
        (by decide +kernel) (by decide +kernel)
      exact ⟨before, split, leads, by rw [basename]; decide +kernel⟩
  obtain ⟨before, split, leads, requestsName⟩ := leads
  refine ⟨command.flatMap Element.tokens, ?_, before, wordValue word, arguments.map wordValue, ?_, leads, requestsName⟩
  · rw [segments_plain legible plain]
    exact List.mem_map_of_mem member
  · rw [segmentParts_plain (fun element inside => legible.wellFormed element (inList element inside).1) commandPlain
      fun element inside => (inList element inside).2]
    exact split

/-- Privilege requests are detected if and only if there is none or some word of the list that
the policy takes for the name of a command is `sudo` or `doas`; in plain lists they are. -/
theorem privilege_detected_iff (elements : List Element) (legible : Legible elements) :
    (PrivilegeDetected elements ↔ (RequestsPrivilege elements → PrivilegeExposed (readTokens elements))) ∧
      ((∀ element ∈ elements, PlainElement element) → PrivilegeDetected elements) := by
  have reported_iff : (inspectShellCommand (commandText elements)).requestsPrivilege = true ↔
      PrivilegeExposed (readTokens elements) := by
    rw [requestsPrivilege_iff, tokenizeShellCommand_text legible]
  refine ⟨⟨fun detected requests => reported_iff.mp (detected.reported requests), fun exposed => ?_⟩, fun plain => ?_⟩
  · exact detected_of_reported legible fun requests => reported_iff.mpr (exposed requests)
  · exact detected_of_reported legible fun requests => reported_iff.mpr (exposed_plain legible plain requests)

theorem privilege_detected_joined :
    PrivilegeDetected [.word [.literal (bytes "true")], .separator .andIf, .word [.literal (bytes "sudo")]] := by
  refine (privilege_detected_iff _ ⟨?_, ?_⟩).2 ?_
  · simp only [List.forall_mem_cons]
    refine ⟨?_, trivial, ?_, by simp⟩
    · exact literal_word (isLiteral_of_all (by decide +kernel) (by decide +kernel))
    · exact literal_word (isLiteral_of_all (by decide +kernel) (by decide +kernel))
  · simp [Apart]
  · simp only [List.forall_mem_cons]
    refine ⟨?_, ⟨by decide, by decide⟩, ?_, by simp⟩
    · exact plain_literal (by decide +kernel) (by decide +kernel) (by decide +kernel) (by decide +kernel) (by decide +kernel)
    · exact plain_literal (by decide +kernel) (by decide +kernel) (by decide +kernel) (by decide +kernel) (by decide +kernel)

/-- `true & sudo id`. -/
def backgroundList : List Element :=
  [.word [.literal (bytes "true")], .blank false, .separator .background, .blank false,
    .word [.literal (bytes "sudo")], .blank false, .word [.literal (bytes "id")]]

/-- Behind a single `&` the policy sees no new command; the detector of the exec rules does. -/
theorem background_hides_request :
    Legible backgroundList ∧ RequestsPrivilege backgroundList ∧
      shellCommandUsesPrivilegeEscalation (commandText backgroundList) = true ∧
      (inspectShellCommand (commandText backgroundList)).requestsPrivilege = false ∧
      ¬ PrivilegeDetected backgroundList := by
  have requests : RequestsPrivilege backgroundList := by
    refine ⟨[.blank false, .word [.literal (bytes "sudo")], .blank false, .word [.literal (bytes "id")]],
      by decide +kernel, [.literal (bytes "sudo")], [[.literal (bytes "id")]], by decide +kernel, by decide +kernel⟩
  have hidden : (inspectShellCommand (commandText backgroundList)).requestsPrivilege = false := by decide +kernel
  refine ⟨⟨?_, by simp [backgroundList, Apart]⟩, requests, by decide +kernel, hidden, fun detected => ?_⟩
  · simp only [backgroundList, List.forall_mem_cons]
    refine ⟨?_, trivial, trivial, trivial, ?_, trivial, ?_, by simp⟩
    · exact literal_word (isLiteral_of_all (by decide +kernel) (by decide +kernel))
    · exact literal_word (isLiteral_of_all (by decide +kernel) (by decide +kernel))
    · exact literal_word (isLiteral_of_all (by decide +kernel) (by decide +kernel))
  · exact absurd (detected.reported requests) (by simp [hidden])

end Requests

end ReqPack.PluginHost
