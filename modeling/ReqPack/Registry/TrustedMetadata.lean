import ReqPack.PluginHost.ExecutionPolicy
import ReqPack.PluginHost.ShellReading

/-! # Trusted records and what plugins declare

A plugin declares its own security metadata, and the execution policy reads what it
declares.  The registry compares the declaration with the trusted record of the plugin when
the plugin is constructed.
-/

namespace ReqPack.Registry

open ReqPack.Data ReqPack.Data.Ascii ReqPack.PluginHost

section Source

/-- What the comparison reads of a `RegistryRecord`. -/
structure TrustRecord where
  name : Bytes := []
  isAlias : Bool := false
  role : Bytes := []
  capabilities : List Bytes := []
  ecosystemScopes : List Bytes := []
  writeScopes : List PluginWriteScope := []
  networkScopes : List PluginNetworkScope := []
  privilegeLevel : Bytes := []
deriving DecidableEq, Repr

def containsWriteScope (scopes : List PluginWriteScope) (expected : PluginWriteScope) : Bool :=
  (scopes.find? fun scope => scope.kind = expected.kind && scope.value = expected.value).isSome

def containsNetworkScope (scopes : List PluginNetworkScope) (expected : PluginNetworkScope) : Bool :=
  (scopes.find? fun scope =>
    scope.host = expected.host && scope.scheme = expected.scheme && scope.pathPrefix = expected.pathPrefix).isSome

/-- `Registry::runtimeMetadataMatchesTrustRecord`; `metadata` is there if the plugin is and
declares any. -/
def metadataMatchesTrustRecord (requireThinLayer : Bool) (metadata : Option PluginSecurityMetadata)
    (record : TrustRecord) : Bool :=
  if !requireThinLayer || record.isAlias || record.name = bytes "rqp" then true
  else
    match metadata with
    | none => false
    | some metadata =>
        metadata.role = record.role && metadata.privilegeLevel = record.privilegeLevel &&
          record.capabilities.all metadata.capabilities.contains &&
          record.ecosystemScopes.all metadata.ecosystemScopes.contains &&
          record.writeScopes.all (containsWriteScope metadata.writeScopes) &&
          record.networkScopes.all (containsNetworkScope metadata.networkScopes)

end Source

section Grants

/-- The metadata that declares what the record grants. -/
def TrustRecord.granted (record : TrustRecord) : PluginSecurityMetadata where
  role := record.role
  capabilities := record.capabilities
  ecosystemScopes := record.ecosystemScopes
  writeScopes := record.writeScopes
  networkScopes := record.networkScopes
  privilegeLevel := record.privilegeLevel

/-- A plugin that the record accepts runs no command that the record does not grant. -/
def GrantBinds (record : TrustRecord) (metadata : PluginSecurityMetadata) : Prop :=
  metadataMatchesTrustRecord true (some metadata) record = true →
    ∀ (env : ExecutionEnvironment) (pluginId pluginDirectory command : Bytes)
      (runtimeWriteRoots : List (LexicalPath Bytes)),
      validate env metadata pluginId pluginDirectory command runtimeWriteRoots = none →
        validate env record.granted pluginId pluginDirectory command runtimeWriteRoots = none

/-- The granted scopes allow every target that the declared ones do. -/
def ScopesCovered (granted declared : PluginSecurityMetadata) : Prop :=
  ∀ (env : ExecutionEnvironment) (pluginDirectory rawTarget : Bytes), isCommandBoundaryToken rawTarget = false →
    targetAllowed env declared pluginDirectory [] rawTarget = true →
      targetAllowed env granted pluginDirectory [] rawTarget = true

variable {record : TrustRecord} {metadata : PluginSecurityMetadata}

theorem matches_privilegeLevel (ordinary : record.isAlias = false) (external : record.name ≠ bytes "rqp")
    (accepted : metadataMatchesTrustRecord true (some metadata) record = true) :
    metadata.privilegeLevel = record.privilegeLevel := by
  simp only [metadataMatchesTrustRecord, ordinary, external, Bool.not_true, Bool.or_self, decide_false,
    Bool.false_eq_true, if_false, Bool.and_eq_true, decide_eq_true_eq] at accepted
  exact accepted.1.1.1.1.2

/-- A command that writes one path: each byte of it behind a backslash. -/
def writingCommand (rawTarget : Bytes) : Bytes := greater :: rawTarget.flatMap fun c => [backslash, c]

theorem tokenize_escaped {state : ShellTokens} (text : Bytes) :
    tokenizeFrom 0 .plain state (text.flatMap fun c => [backslash, c]) = (state.push text).flush := by
  induction text generalizing state with
  | nil => simp [ShellTokens.push]
  | cons c text ih =>
      have step : tokenizeFrom 0 .plain state ((c :: text).flatMap fun c => [backslash, c]) =
          tokenizeFrom 0 .plain (state.push [c]) (text.flatMap fun c => [backslash, c]) := by
        simp [tokenizeFrom]
      rw [step, ih]
      simp [ShellTokens.push]

theorem tokenize_writingCommand {rawTarget : Bytes} (present : rawTarget ≠ []) :
    tokenizeShellCommand (writingCommand rawTarget) = [[greater], rawTarget] := by
  obtain ⟨c, rest, rfl⟩ := List.exists_cons_of_ne_nil present
  have opening : tokenizeFrom 0 .plain {} (writingCommand (c :: rest)) =
      tokenizeFrom 0 .plain { tokens := [[greater]] } ((c :: rest).flatMap fun c => [backslash, c]) := by
    simp +decide [writingCommand, tokenizeFrom, redirectionOperator, ShellTokens.addRedirection, ShellTokens.flush,
      ShellTokens.addToken]
  rw [tokenizeShellCommand, opening, tokenize_escaped]
  rfl

theorem inspect_writingCommand {rawTarget : Bytes} (present : rawTarget ≠ [])
    (noBoundary : isCommandBoundaryToken rawTarget = false) :
    inspectShellCommand (writingCommand rawTarget) = { requestsPrivilege := false, writeTargets := [rawTarget] } := by
  have segments : [[greater], rawTarget].splitOnP isCommandBoundaryToken = [[[greater], rawTarget]] := by
    apply List.splitOnP_eq_singleton
    intro token member
    rcases List.mem_pair.mp member with rfl | rfl
    · decide +kernel
    · exact noBoundary
  have operator : isFileRedirectionOperator [greater] = true := by decide +kernel
  rw [inspectShellCommand, tokenize_writingCommand present, segments]
  simp [inspectSegment, segmentParts, operator, present, collectWriteTargetsFromCommandWords, commandAt]

theorem targetAllowed_roots {env : ExecutionEnvironment} {pluginDirectory rawTarget : Bytes}
    {roots : List (LexicalPath Bytes)} {declared granted : PluginSecurityMetadata}
    (covered : targetAllowed env declared pluginDirectory [] rawTarget = true →
      targetAllowed env granted pluginDirectory [] rawTarget = true)
    (allowed : targetAllowed env declared pluginDirectory roots rawTarget = true) :
    targetAllowed env granted pluginDirectory roots rawTarget = true := by
  simp only [targetAllowed, targetInScope, List.any_nil, Bool.false_or, Bool.or_eq_true] at covered allowed ⊢
  rcases allowed with exempt | inRoot | inScope
  · exact Or.inl exempt
  · exact Or.inr (Or.inl inRoot)
  · rcases covered (Or.inr inScope) with exempt | inGranted
    · exact Or.inl exempt
    · exact Or.inr (Or.inr inGranted)

/-- What a plugin declares is bound by its record if and only if the record refuses the plugin, the
plugin executes no commands, or the record grants commands and scopes that cover those declared. -/
theorem grant_binds_iff (record : TrustRecord) (metadata : PluginSecurityMetadata) (ordinary : record.isAlias = false)
    (external : record.name ≠ bytes "rqp") :
    GrantBinds record metadata ↔
      (metadataMatchesTrustRecord true (some metadata) record = true → bytes "exec" ∈ metadata.capabilities →
        bytes "exec" ∈ record.capabilities ∧ ScopesCovered record.granted metadata) := by
  constructor
  · intro binds accepted capable
    have quiet : ∀ (env : ExecutionEnvironment) (pluginDirectory : Bytes),
        validate env metadata [] pluginDirectory [] [] = none := by
      intro env pluginDirectory
      refine validate_eq_none_iff.2 ⟨capable, fun requests => ?_, fun target member => ?_⟩
      · exact absurd requests (by decide +kernel)
      · exact absurd member (by rw [show (inspectShellCommand []).writeTargets = [] from rfl]; simp)
    refine ⟨?_, fun env pluginDirectory rawTarget noBoundary allowed => ?_⟩
    · exact (validate_eq_none_iff.1 (binds accepted ⟨none, {}, {}, none⟩ [] [] [] [] (quiet _ _))).1
    · by_cases present : rawTarget = []
      · subst present
        rfl
      · have inspected := inspect_writingCommand present noBoundary
        have permitted : validate env metadata [] pluginDirectory (writingCommand rawTarget) [] = none := by
          rw [validate_eq_none_iff, inspected]
          exact ⟨capable, by simp, by simpa using allowed⟩
        have granted := (validate_eq_none_iff.1 (binds accepted env [] pluginDirectory _ [] permitted)).2.2
        rw [inspected] at granted
        exact granted rawTarget (by simp)
  · intro covered accepted env pluginId pluginDirectory command roots permitted
    obtain ⟨capable, level, targets⟩ := validate_eq_none_iff.1 permitted
    obtain ⟨granted, scopes⟩ := covered accepted capable
    refine validate_eq_none_iff.2 ⟨granted, fun requests => ?_, fun target member => ?_⟩
    · rw [TrustRecord.granted, ← matches_privilegeLevel ordinary external accepted]
      exact level requests
    · have noBoundary := (mem_writeTargets_iff.1 member).noBoundary
      exact targetAllowed_roots (scopes env pluginDirectory target noBoundary) (targets target member)

def tempRecord : TrustRecord where
  name := bytes "apt"
  capabilities := [bytes "exec"]
  writeScopes := [{ kind := bytes "temp" }]

theorem grant_binds_temp : GrantBinds tempRecord tempRecord.granted := by
  refine (grant_binds_iff tempRecord tempRecord.granted rfl (by decide +kernel)).mpr fun _ capable => ⟨capable, ?_⟩
  intro env pluginDirectory rawTarget _ allowed
  exact allowed

/-- More than the record grants. -/
def widenedMetadata : PluginSecurityMetadata where
  capabilities := [bytes "exec"]
  writeScopes := [{ kind := bytes "temp" }, { kind := bytes "system-package-paths" }]

/-- The record's scopes have to be declared, and any others may be. -/
theorem declared_scope_widens :
    metadataMatchesTrustRecord true (some widenedMetadata) tempRecord = true ∧
      validate ⟨none, {}, {}, none⟩ widenedMetadata (bytes "apt") (bytes "/opt/plugin") (bytes "touch /etc/passwd") [] =
        none ∧
      validate ⟨none, {}, {}, none⟩ tempRecord.granted (bytes "apt") (bytes "/opt/plugin") (bytes "touch /etc/passwd") [] =
        some (bytes
          "execution policy denied for plugin 'apt': command writes outside declared writeScopes ('/etc/passwd').") ∧
      ¬ GrantBinds tempRecord widenedMetadata := by
  have accepted : metadataMatchesTrustRecord true (some widenedMetadata) tempRecord = true := by decide +kernel
  have permitted : validate ⟨none, {}, {}, none⟩ widenedMetadata (bytes "apt") (bytes "/opt/plugin")
      (bytes "touch /etc/passwd") [] = none := by decide +kernel
  have denied : validate ⟨none, {}, {}, none⟩ tempRecord.granted (bytes "apt") (bytes "/opt/plugin")
      (bytes "touch /etc/passwd") [] = some (bytes
        "execution policy denied for plugin 'apt': command writes outside declared writeScopes ('/etc/passwd').") := by
    decide +kernel
  refine ⟨accepted, permitted, denied, fun binds => ?_⟩
  have clash := binds accepted _ _ _ _ _ permitted
  rw [denied] at clash
  cases clash

end Grants

end ReqPack.Registry
