import ReqPack.PluginHost.ShellCommands
import ReqPack.PluginHost.WriteScopes

/-! # The execution policy

A command of a plugin runs only when the plugin declared that it executes commands, that it
needs privileges if the command asks for them, and where it writes.
-/

namespace ReqPack.PluginHost

open ReqPack.Data ReqPack.Data.Ascii

structure PluginNetworkScope where
  host : Bytes
  scheme : Bytes := []
  pathPrefix : Bytes := []
deriving DecidableEq, Repr

structure PluginSecurityMetadata where
  role : Bytes := []
  capabilities : List Bytes := []
  ecosystemScopes : List Bytes := []
  writeScopes : List PluginWriteScope := []
  networkScopes : List PluginNetworkScope := []
  privilegeLevel : Bytes := []
deriving DecidableEq, Repr

section Validate

variable (env : ExecutionEnvironment) (metadata : PluginSecurityMetadata) (pluginId pluginDirectory command : Bytes)
  (runtimeWriteRoots : List (LexicalPath Bytes))

/-- Where a target of a command leads. -/
def targetPathOf (rawTarget : Bytes) : LexicalPath Bytes :=
  normalizeExecPath rawTarget (currentWorkingDirectoryOr env (pathOf pluginDirectory))

/-- A root of the run or a declared scope contains the target. -/
def targetInScope (rawTarget : Bytes) : Bool :=
  let targetPath := targetPathOf env pluginDirectory rawTarget
  (runtimeWriteRoots.any fun allowedRoot => targetPath.hasPrefix allowedRoot.lexicallyNormal) ||
    anyWriteScopeAllowsPath env metadata.writeScopes targetPath (pathOf pluginDirectory).lexicallyNormal

/-- Sinks are let through wherever they are. -/
def targetAllowed (rawTarget : Bytes) : Bool :=
  let targetPath := targetPathOf env pluginDirectory rawTarget
  targetPath.isEmpty || isSafeRedirectionSink targetPath ||
    targetInScope env metadata pluginDirectory runtimeWriteRoots rawTarget

/-- `LuaBridgeExecutionPolicy::validate`. -/
def validate : Option Bytes :=
  let inspection := inspectShellCommand command
  if !metadata.capabilities.contains (bytes "exec") then
    some (bytes "execution policy denied for plugin '" ++ pluginId ++
      bytes "': shell command requires capability 'exec'.")
  else if inspection.requestsPrivilege && metadata.privilegeLevel ≠ bytes "sudo" then
    some (bytes "execution policy denied for plugin '" ++ pluginId ++
      bytes "': command requests privilege escalation but privilegeLevel is '" ++ metadata.privilegeLevel ++ bytes "'.")
  else
    (inspection.writeTargets.find? fun rawTarget =>
        !targetAllowed env metadata pluginDirectory runtimeWriteRoots rawTarget).map fun rawTarget =>
      bytes "execution policy denied for plugin '" ++ pluginId ++
        bytes "': command writes outside declared writeScopes ('" ++ rawTarget ++ bytes "')."

variable {env metadata pluginId pluginDirectory command runtimeWriteRoots}

theorem validate_eq_none_iff :
    validate env metadata pluginId pluginDirectory command runtimeWriteRoots = none ↔
      bytes "exec" ∈ metadata.capabilities ∧
        ((inspectShellCommand command).requestsPrivilege = true → metadata.privilegeLevel = bytes "sudo") ∧
        ∀ rawTarget ∈ (inspectShellCommand command).writeTargets,
          targetAllowed env metadata pluginDirectory runtimeWriteRoots rawTarget = true := by
  unfold validate
  dsimp only
  by_cases capable : bytes "exec" ∈ metadata.capabilities
  · rw [if_neg (by simpa using capable)]
    by_cases requests : (inspectShellCommand command).requestsPrivilege = true ∧ metadata.privilegeLevel ≠ bytes "sudo"
    · rw [if_pos (by simpa using requests)]
      simp [requests]
    · rw [if_neg (by simpa using requests), Option.map_eq_none_iff, List.find?_eq_none]
      have level : (inspectShellCommand command).requestsPrivilege = true → metadata.privilegeLevel = bytes "sudo" := by
        intro asks
        by_contra different
        exact requests ⟨asks, different⟩
      simp only [capable, true_and, Bool.not_eq_true', Bool.not_eq_false]
      exact ⟨fun allowed => ⟨level, allowed⟩, fun allowed => allowed.2⟩
  · rw [if_pos (by simpa using capable)]
    simp [capable]

theorem validate_privilege (requests : (inspectShellCommand command).requestsPrivilege = true)
    (level : metadata.privilegeLevel ≠ bytes "sudo") :
    (validate env metadata pluginId pluginDirectory command runtimeWriteRoots).isSome = true := by
  rw [Option.isSome_iff_ne_none]
  intro permitted
  exact level ((validate_eq_none_iff.1 permitted).2.1 requests)

theorem validate_target {rawTarget : Bytes} (recorded : rawTarget ∈ (inspectShellCommand command).writeTargets)
    (denied : targetAllowed env metadata pluginDirectory runtimeWriteRoots rawTarget = false) :
    (validate env metadata pluginId pluginDirectory command runtimeWriteRoots).isSome = true := by
  rw [Option.isSome_iff_ne_none]
  intro permitted
  have allowed := (validate_eq_none_iff.1 permitted).2.2 rawTarget recorded
  simp [denied] at allowed

end Validate

end ReqPack.PluginHost
