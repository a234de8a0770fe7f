import ReqPack.Registry.Readable

/-! # Plugin names

`Registry::resolvePluginName` takes one step: to the target system of a record, else to
what an alias record points to, else to the configured alias.  `resolveRecord` follows
alias records to their end.
-/

namespace ReqPack.Registry

open ReqPack.Data ReqPack.Core
open ReqPack.Planner (toLowerCopy)

/-- What names are resolved by: the records, each under its own name, and
`planner.systemAliases`. -/
structure PluginRegistry where
  store : RegistryStore
  systemAliases : KeyValue String String
  named : ∀ key record, store.get key = some record → record.name = key ∧ toLowerCopy key = key

/-- `BUILTIN_RQ_PLUGIN_ID`. -/
def builtInRqpPluginId : String := "rqp"

/-- `registry_record_target_system`. -/
def recordTargetSystem (record : RegistryRecord) : String :=
  if !record.targetSystem.isEmpty then toLowerCopy record.targetSystem
  else if isPackageEntry record then "rqp"
  else ""

/-- The name a record redirects to. -/
def redirectedBy (record : RegistryRecord) : Option String :=
  if !(recordTargetSystem record).isEmpty then some (recordTargetSystem record)
  else if record.isAlias && !record.source.isEmpty then some record.source
  else none

/-- `Registry::resolvePluginName`. -/
def PluginRegistry.resolvePluginName (registry : PluginRegistry) (name : String) : String :=
  let normalized := toLowerCopy name
  if normalized = builtInRqpPluginId then normalized
  else
    match (loadRecord registry.store normalized).bind redirectedBy with
    | some system => system
    | none => (registry.systemAliases.get normalized).getD normalized

/-! ## Where a name leads -/

/-- A record that is followed to another one. -/
def IsFollowed (record : RegistryRecord) : Prop := record.isAlias = true ∧ record.source.isEmpty = false

/-- A name in lower case points to another system. -/
inductive Redirects (registry : PluginRegistry) (name : String) : String → Prop
  | target {record : RegistryRecord} (other : name ≠ builtInRqpPluginId)
      (stored : loadRecord registry.store name = some record)
      (named : (recordTargetSystem record).isEmpty = false) :
      Redirects registry name (recordTargetSystem record)
  | aliasRecord {record : RegistryRecord} (other : name ≠ builtInRqpPluginId)
      (stored : loadRecord registry.store name = some record)
      (unnamed : (recordTargetSystem record).isEmpty = true) (followed : IsFollowed record) :
      Redirects registry name record.source
  | configured {system : String} (other : name ≠ builtInRqpPluginId)
      (silent : ∀ record, loadRecord registry.store name = some record →
        (recordTargetSystem record).isEmpty = true ∧ ¬ IsFollowed record)
      (configured : registry.systemAliases.get name = some system) :
      Redirects registry name system

/-- A system that points to itself, or is in lower case and points nowhere. -/
def SettledName (registry : PluginRegistry) (system : String) : Prop :=
  Redirects registry (toLowerCopy system) system ∨
    (toLowerCopy system = system ∧ ∀ other, ¬ Redirects registry system other)

/-- So many alias records lead from one record to another. -/
inductive AliasSteps (store : RegistryStore) : Nat → RegistryRecord → RegistryRecord → Prop
  | none (record : RegistryRecord) : AliasSteps store 0 record record
  | step {steps : Nat} {record next last : RegistryRecord} (followed : IsFollowed record)
      (stored : loadRecord store record.source = some next) (rest : AliasSteps store steps next last) :
      AliasSteps store (steps + 1) record last

/-- A system in lower case whose record is no alias, or one that sixteen steps lead back to. -/
def OwnRecord (registry : PluginRegistry) (system : String) : Prop :=
  toLowerCopy system = system ∧ ∃ record, loadRecord registry.store system = some record ∧
    (¬ IsFollowed record ∨ AliasSteps registry.store 16 record record)

/-- The records of a name end in a plugin. -/
def EndsInPlugin (registry : PluginRegistry) (name : String) : Prop :=
  ∃ record, resolveRecord registry.store name = some record ∧ canMaterializePlugin record = true

section Resolving

variable {registry : PluginRegistry} {name system : String}

theorem isFollowed_iff {record : RegistryRecord} :
    IsFollowed record ↔ (record.isAlias && !record.source.isEmpty) = true := by
  simp [IsFollowed]

theorem redirectedBy_eq_none {record : RegistryRecord} :
    redirectedBy record = none ↔ (recordTargetSystem record).isEmpty = true ∧ ¬ IsFollowed record := by
  rw [isFollowed_iff, redirectedBy]
  cases (recordTargetSystem record).isEmpty with
  | false => simp
  | true => simp

theorem redirectedBy_eq_some {record : RegistryRecord} :
    redirectedBy record = some system ↔
      ((recordTargetSystem record).isEmpty = false ∧ system = recordTargetSystem record) ∨
        ((recordTargetSystem record).isEmpty = true ∧ IsFollowed record ∧ system = record.source) := by
  rw [isFollowed_iff, redirectedBy]
  cases (recordTargetSystem record).isEmpty with
  | false => simp [@eq_comm String system]
  | true => simp [@eq_comm String system]

/-- The step that is taken is where the name points to. -/
theorem redirects_iff :
    Redirects registry name system ↔ name ≠ builtInRqpPluginId ∧
      (match (loadRecord registry.store name).bind redirectedBy with
        | some found => found = system
        | none => registry.systemAliases.get name = some system) := by
  apply Iff.intro
  · intro redirects
    cases redirects with
    | target other stored named =>
        have found := redirectedBy_eq_some.2 (Or.inl ⟨named, rfl⟩)
        simp [other, stored, found]
    | aliasRecord other stored unnamed followed =>
        have found := redirectedBy_eq_some.2 (Or.inr ⟨unnamed, followed, rfl⟩)
        simp [other, stored, found]
    | configured other silent configured =>
        refine ⟨other, ?_⟩
        have nothing : (loadRecord registry.store name).bind redirectedBy = none := by
          cases stored : loadRecord registry.store name with
          | none => rfl
          | some record => exact redirectedBy_eq_none.2 (silent record stored)
        rw [nothing]
        exact configured
  · intro step
    obtain ⟨other, step⟩ := step
    cases redirected : (loadRecord registry.store name).bind redirectedBy with
    | some found =>
        simp only [redirected] at step
        subst step
        obtain ⟨record, stored, redirected⟩ := Option.bind_eq_some_iff.mp redirected
        rcases redirectedBy_eq_some.1 redirected with ⟨named, rfl⟩ | ⟨unnamed, followed, rfl⟩
        · exact Redirects.target other stored named
        · exact Redirects.aliasRecord other stored unnamed followed
    | none =>
        simp only [redirected] at step
        apply Redirects.configured other _ step
        intro record stored
        rw [stored] at redirected
        exact redirectedBy_eq_none.1 redirected

theorem redirects_unique {other : String} (first : Redirects registry name system)
    (second : Redirects registry name other) : system = other := by
  have left := (redirects_iff.1 first).2
  have right := (redirects_iff.1 second).2
  split at left
  · rename_i found redirected
    rw [redirected] at right
    exact left.symm.trans right
  · rename_i redirected
    rw [redirected] at right
    exact Option.some.inj (left.symm.trans right)

/-- A name is resolved to where it points. -/
theorem resolvePluginName_of_redirects (redirects : Redirects registry (toLowerCopy name) system) :
    registry.resolvePluginName name = system := by
  obtain ⟨other, step⟩ := redirects_iff.1 redirects
  simp only [PluginRegistry.resolvePluginName, if_neg other]
  split at step
  · exact step
  · rw [step]
    rfl

/-- A name that points nowhere is resolved to itself in lower case. -/
theorem resolvePluginName_of_not (nowhere : ∀ system, ¬ Redirects registry (toLowerCopy name) system) :
    registry.resolvePluginName name = toLowerCopy name := by
  simp only [PluginRegistry.resolvePluginName]
  by_cases builtIn : toLowerCopy name = builtInRqpPluginId
  · rw [if_pos builtIn]
  · rw [if_neg builtIn]
    cases redirected : (loadRecord registry.store (toLowerCopy name)).bind redirectedBy with
    | some found =>
        exact absurd (redirects_iff.2 ⟨builtIn, by simp [redirected]⟩) (nowhere found)
    | none =>
        cases configured : registry.systemAliases.get (toLowerCopy name) with
        | none => rfl
        | some system =>
            exact absurd (redirects_iff.2 ⟨builtIn, by simp [redirected, configured]⟩) (nowhere system)

/-- Resolving once more changes nothing exactly for a settled name. -/
theorem resolvePluginName_eq_self : registry.resolvePluginName system = system ↔ SettledName registry system := by
  apply Iff.intro
  · intro same
    by_cases somewhere : ∃ other, Redirects registry (toLowerCopy system) other
    · obtain ⟨other, redirects⟩ := somewhere
      rw [resolvePluginName_of_redirects redirects] at same
      subst same
      exact Or.inl redirects
    · have nowhere := not_exists.mp somewhere
      have lower := (resolvePluginName_of_not nowhere).symm.trans same
      rw [lower] at nowhere
      exact Or.inr ⟨lower, nowhere⟩
  · intro settled
    rcases settled with redirects | ⟨lower, nowhere⟩
    · exact resolvePluginName_of_redirects redirects
    · rw [resolvePluginName_of_not (by rw [lower]; exact nowhere), lower]

theorem resolvePluginName_idem_iff :
    registry.resolvePluginName (registry.resolvePluginName name) = registry.resolvePluginName name ↔
      ∀ system, Redirects registry (toLowerCopy name) system → SettledName registry system := by
  rw [resolvePluginName_eq_self]
  by_cases somewhere : ∃ system, Redirects registry (toLowerCopy name) system
  · obtain ⟨system, redirects⟩ := somewhere
    rw [resolvePluginName_of_redirects redirects]
    apply Iff.intro
    · intro settled other further
      rw [← redirects_unique redirects further]
      exact settled
    · intro settled
      exact settled system redirects
  · have nowhere := not_exists.mp somewhere
    rw [resolvePluginName_of_not nowhere]
    apply iff_of_true
    · exact Or.inr ⟨toLowerCopy_idem name, nowhere⟩
    · intro system redirects
      exact absurd redirects (nowhere system)

end Resolving

section Following

variable {registry : PluginRegistry} {name system : String} {store : RegistryStore}

/-- Records are stored under their own names. -/
theorem loadRecord_name {record : RegistryRecord} (loaded : loadRecord registry.store name = some record) :
    record.name = toLowerCopy name := by
  obtain ⟨stored, found, restored⟩ := Option.bind_eq_some_iff.mp loaded
  rw [restoredRecord_eq_some restored]
  exact (registry.named _ stored found).1

/-- The end of a chain: so many steps away, and not followed unless they are used up. -/
theorem followAliases_eq_some {steps : Nat} {record last : RegistryRecord} :
    followAliases store steps record = some last ↔
      ∃ taken ≤ steps, AliasSteps store taken record last ∧ (taken = steps ∨ ¬ IsFollowed last) := by
  induction steps generalizing record with
  | zero =>
      apply Iff.intro
      · intro followed
        cases followed
        exact ⟨0, le_refl 0, AliasSteps.none _, Or.inl rfl⟩
      · intro chain
        obtain ⟨taken, bound, steps, _⟩ := chain
        obtain rfl := Nat.le_zero.mp bound
        cases steps
        rfl
  | succ steps ih =>
      rw [followAliases]
      by_cases followed : (record.isAlias && !record.source.isEmpty) = true
      · rw [if_pos followed, Option.bind_eq_some_iff]
        apply Iff.intro
        · intro chain
          obtain ⟨next, stored, rest⟩ := chain
          obtain ⟨taken, bound, further, ended⟩ := ih.mp rest
          refine ⟨taken + 1, by omega, AliasSteps.step (isFollowed_iff.2 followed) stored further, ?_⟩
          exact ended.imp (congrArg (· + 1)) id
        · intro chain
          obtain ⟨taken, bound, further, ended⟩ := chain
          cases further with
          | none =>
              rcases ended with same | stopped
              · omega
              · exact absurd (isFollowed_iff.2 followed) stopped
          | @step taken _ next _ _ stored rest =>
              refine ⟨next, stored, ih.mpr ⟨taken, by omega, rest, ?_⟩⟩
              exact ended.imp (by omega) id
      · rw [if_neg followed]
        have stopped : ¬ IsFollowed record := fun goes => followed (isFollowed_iff.1 goes)
        apply Iff.intro
        · intro same
          cases same
          exact ⟨0, by omega, AliasSteps.none _, Or.inr stopped⟩
        · intro chain
          obtain ⟨taken, _, further, _⟩ := chain
          cases further with
          | none => rfl
          | step goes stored rest => exact absurd goes stopped

theorem loadRecord_lower : loadRecord store (toLowerCopy name) = loadRecord store name := by
  rw [loadRecord, loadRecord, toLowerCopy_idem]

/-- A record is found under its name again. -/
theorem loadRecord_again {record : RegistryRecord} (loaded : loadRecord registry.store name = some record) :
    loadRecord registry.store record.name = some record := by
  rw [loadRecord_name loaded, loadRecord_lower]
  exact loaded

theorem aliasSteps_loaded {steps : Nat} {record last : RegistryRecord}
    (loaded : loadRecord registry.store name = some record)
    (chain : AliasSteps registry.store steps record last) :
    ∃ other, loadRecord registry.store other = some last := by
  induction chain generalizing name with
  | none => exact ⟨name, loaded⟩
  | step followed stored rest ih => exact ih stored

/-- A system has the record of its own name exactly when no alias leads away from it. -/
theorem resolveRecord_own_iff :
    (∃ found, resolveRecord registry.store system = some found ∧ found.name = system) ↔
      OwnRecord registry system := by
  apply Iff.intro
  · intro own
    obtain ⟨found, resolved, named⟩ := own
    obtain ⟨record, loaded, followed⟩ := Option.bind_eq_some_iff.mp resolved
    obtain ⟨taken, _, chain, ended⟩ := followAliases_eq_some.1 followed
    obtain ⟨other, foundLoaded⟩ := aliasSteps_loaded loaded chain
    have lower : toLowerCopy system = system := by
      rw [← named, loadRecord_name foundLoaded, toLowerCopy_idem]
    have same : record = found := by
      have again := loadRecord_again foundLoaded
      rw [named, loaded] at again
      exact Option.some.inj again
    subst same
    refine ⟨lower, record, loaded, ?_⟩
    rcases ended with full | stopped
    · subst full
      exact Or.inr chain
    · exact Or.inl stopped
  · intro own
    obtain ⟨lower, record, loaded, ended⟩ := own
    refine ⟨record, ?_, (loadRecord_name loaded).trans lower⟩
    rw [resolveRecord, loaded, Option.bind_some, followAliases_eq_some]
    rcases ended with stopped | circle
    · exact ⟨0, by omega, AliasSteps.none record, Or.inr stopped⟩
    · exact ⟨16, le_refl 16, circle, Or.inl rfl⟩

/-- A name that points nowhere has its own record as soon as its records end in a plugin. -/
theorem ownRecord_of_not_redirects (other : toLowerCopy name ≠ builtInRqpPluginId)
    (nowhere : ∀ system, ¬ Redirects registry (toLowerCopy name) system) (plugin : EndsInPlugin registry name) :
    OwnRecord registry (toLowerCopy name) := by
  obtain ⟨last, resolved, _⟩ := plugin
  obtain ⟨record, loaded, _⟩ := Option.bind_eq_some_iff.mp resolved
  rw [← loadRecord_lower] at loaded
  refine ⟨toLowerCopy_idem name, record, loaded, Or.inl ?_⟩
  intro followed
  cases redirected : redirectedBy record with
  | none => exact (redirectedBy_eq_none.1 redirected).2 followed
  | some system =>
      apply nowhere system
      exact redirects_iff.2 ⟨other, by simp [loaded, redirected]⟩

end Following

/-- Resolving a name is stable, and its plugin record is the one of the resolved name, if and
only if the name points to no name that points on, and to no name without a record of its own. -/
theorem plugin_name_stable_iff (registry : PluginRegistry) (name : String) :
    (registry.resolvePluginName (registry.resolvePluginName name) = registry.resolvePluginName name ∧
      (EndsInPlugin registry name →
        ∃ found, resolveRecord registry.store (registry.resolvePluginName name) = some found ∧
          found.name = registry.resolvePluginName name)) ↔
      (∀ system, Redirects registry (toLowerCopy name) system →
        SettledName registry system ∧ (EndsInPlugin registry name → OwnRecord registry system)) ∧
      (toLowerCopy name = builtInRqpPluginId → EndsInPlugin registry name →
        OwnRecord registry builtInRqpPluginId) := by
  rw [resolvePluginName_idem_iff, resolveRecord_own_iff]
  by_cases somewhere : ∃ system, Redirects registry (toLowerCopy name) system
  · obtain ⟨system, redirects⟩ := somewhere
    have other := (redirects_iff.1 redirects).1
    rw [resolvePluginName_of_redirects redirects]
    apply Iff.intro
    · intro stable
      refine ⟨?_, fun builtIn => absurd builtIn other⟩
      intro target further
      refine ⟨stable.1 target further, ?_⟩
      rw [← redirects_unique redirects further]
      exact stable.2
    · intro condition
      exact ⟨fun target further => (condition.1 target further).1, (condition.1 system redirects).2⟩
  · have nowhere := not_exists.mp somewhere
    rw [resolvePluginName_of_not nowhere]
    apply Iff.intro
    · intro stable
      refine ⟨fun system redirects => absurd redirects (nowhere system), ?_⟩
      intro builtIn plugin
      rw [← builtIn]
      exact stable.2 plugin
    · intro condition
      refine ⟨fun system redirects => absurd redirects (nowhere system), ?_⟩
      intro plugin
      by_cases builtIn : toLowerCopy name = builtInRqpPluginId
      · rw [builtIn]
        exact condition.2 builtIn plugin
      · exact ownRecord_of_not_redirects builtIn nowhere plugin

/-! ## Stores that calls lead to -/

section Written

variable {store : RegistryStore} {host : RegistryHost}

/-- Records are stored under their own names. -/
def StoredByName (store : RegistryStore) : Prop :=
  ∀ key record, store.get key = some record → record.name = key ∧ toLowerCopy key = key

theorem readRecord_name (byName : StoredByName store) {key : String} {record : RegistryRecord}
    (read : readRecord store key = some record) : toLowerCopy record.name = record.name := by
  obtain ⟨stored, found, restored⟩ := Option.bind_eq_some_iff.mp read
  obtain ⟨named, lower⟩ := byName key stored found
  rw [restoredRecord_eq_some restored]
  simp only [named, lower]

theorem putRecord_byName (byName : StoredByName store) {record : RegistryRecord}
    (lower : toLowerCopy record.name = record.name) : StoredByName (putRecord record store) := by
  intro key found get
  rw [putRecord, KeyValue.get_put] at get
  by_cases same : key = toLowerCopy record.name
  · rw [if_pos same] at get
    cases get
    rw [same, toLowerCopy_idem]
    exact ⟨lower.symm, rfl⟩
  · rw [if_neg same] at get
    exact byName key found get

theorem refreshedRecordPayload_name {preferLatestTag : Bool} {record refreshed : RegistryRecord}
    (done : refreshedRecordPayload host preferLatestTag record = some refreshed) :
    refreshed.name = record.name := by
  have named (source : String) (payload : String × String) :
      (withPayload host source payload record).name = record.name := by
    have cleared := congrArg RegistryRecord.name (@withPayload_clear host source payload record)
    exact cleared
  simp only [refreshedRecordPayload] at done
  split at done
  · cases done
    rfl
  · split at done
    · cases done
      rfl
    · simp only [Option.ite_none_left_eq_some] at done
      obtain ⟨_, done⟩ := done
      split at done
      · cases done
      · simp only [Option.ite_none_right_eq_some, Option.some.injEq] at done
        obtain ⟨_, rfl⟩ := done
        exact named _ _

theorem WriteCall.run_byName {call : WriteCall} (byName : StoredByName store) : StoredByName (call.run store) := by
  cases call with
  | syncRecords request =>
      intro key record found
      rcases syncRecords_stored found with before | ⟨given, last, rfl⟩
      · exact byName key record before
      · rw [desiredRecord_name, ← lastNamed_name last]
        exact ⟨rfl, toLowerCopy_idem _⟩
  | refreshRecord host preferLatestTag name =>
      simp only [WriteCall.run, Registry.refreshRecord]
      cases done : (resolveRecord store name).bind (refreshedRecordPayload host preferLatestTag) with
      | none => exact byName
      | some refreshed =>
          obtain ⟨record, resolved, refreshing⟩ := Option.bind_eq_some_iff.mp done
          obtain ⟨key, read⟩ := resolveRecord_read resolved
          have lower := readRecord_name byName read
          rw [← refreshedRecordPayload_name refreshing] at lower
          exact putRecord_byName byName lower
  | cacheScript host name script =>
      simp only [WriteCall.run, Registry.cacheScript]
      split
      · exact byName
      · cases loaded : loadRecord store name with
        | none => exact byName
        | some record =>
            have lower := readRecord_name byName loaded
            simp only
            split
            · exact putRecord_byName byName lower
            · exact byName

theorem writtenStore_byName (calls : List WriteCall) : StoredByName (writtenStore calls) := by
  induction calls using List.reverseRecOn with
  | nil =>
      intro key record found
      cases found
  | append_singleton calls call ih =>
      rw [writtenStore_append]
      exact WriteCall.run_byName ih

/-- The registry behind a sequence of calls that write records. -/
def PluginRegistry.behind (calls : List WriteCall) (systemAliases : KeyValue String String) : PluginRegistry where
  store := writtenStore calls
  systemAliases := systemAliases
  named := writtenStore_byName calls

end Written

/-! ## An alias of an alias -/

/-- No configured alias leads back to itself. -/
def AcyclicAliases (systemAliases : KeyValue String String) : Prop :=
  ∀ name, ¬ Relation.TransGen (fun left right => systemAliases.get left = some right) name name

def aliasRequest : SyncRequest where
  host := bundleHost "return plugin"
  fetchPayloads := false
  replaceMissing := false
  keepsMeta := false
  origins := []
  records :=
    [{ name := "python", source := "py", isAlias := true }, { name := "py", source := "pip", isAlias := true },
      { name := "pip", source := "/src" }]
  bare := by simp

def aliasRegistry : PluginRegistry := PluginRegistry.behind [.syncRecords aliasRequest] {}

/-- `python` is resolved to `py`, and that to `pip`, which is the record of both. -/
theorem alias_of_alias_unstable :
    ¬ ∀ registry : PluginRegistry, AcyclicAliases registry.systemAliases → ∀ name,
      registry.resolvePluginName (registry.resolvePluginName name) = registry.resolvePluginName name ∧
        (EndsInPlugin registry name →
          ∃ found, resolveRecord registry.store (registry.resolvePluginName name) = some found ∧
            found.name = registry.resolvePluginName name) := by
  intro all
  have acyclic : AcyclicAliases aliasRegistry.systemAliases := by
    intro name circle
    obtain ⟨other, first, _⟩ := Relation.TransGen.head'_iff.mp circle
    cases first
  have stable := (all aliasRegistry acyclic "python").1
  have first : aliasRegistry.resolvePluginName "python" = "py" := by decide +kernel
  have second : aliasRegistry.resolvePluginName "py" = "pip" := by decide +kernel
  rw [first, second] at stable
  revert stable
  decide

end ReqPack.Registry
