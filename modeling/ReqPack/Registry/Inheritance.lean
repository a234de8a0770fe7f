import ReqPack.Registry.Incremental

/-! # What a full sync inherits

After a full sync of one commit a store may still tell which commits it was synced to
before: a record takes over every field that its registry file leaves empty.
-/

namespace ReqPack.Registry

open ReqPack.Data ReqPack.Core
open ReqPack.Planner (trimCopy toLowerCopy)

/-- The fields of a record that decide what a plugin is and may do. -/
structure RecordFields where
  source : String
  isAlias : Bool
  role : String
  targetSystem : String
  capabilities : List String
  ecosystemScopes : List String
  writeScopes : List RegistryWriteScope
  networkScopes : List RegistryNetworkScope
  privilegeLevel : String
  scriptSha256 : String
  bootstrapSha256 : String
deriving Repr, DecidableEq

def recordFields (record : RegistryRecord) : RecordFields where
  source := record.source
  isAlias := record.isAlias
  role := record.role
  targetSystem := record.targetSystem
  capabilities := record.capabilities
  ecosystemScopes := record.ecosystemScopes
  writeScopes := record.writeScopes
  networkScopes := record.networkScopes
  privilegeLevel := record.privilegeLevel
  scriptSha256 := record.scriptSha256
  bootstrapSha256 := record.bootstrapSha256

/-- The fields stored under a name. -/
def storedFields (store : RegistryStore) (name : String) : Option RecordFields :=
  (readRecord store name).map recordFields

/-- What a new record may inherit; an absent record has empty fields. -/
def inheritable (store : RegistryStore) (name : String) : RegistryRecord :=
  (readRecord store name).getD {}

/-- Where a record leaves a field empty, two others agree. -/
structure AgreeWhereEmpty (record left right : RegistryRecord) : Prop where
  role : record.role.isEmpty = true → left.role = right.role
  targetSystem : record.targetSystem.isEmpty = true → left.targetSystem = right.targetSystem
  capabilities : record.capabilities.isEmpty = true → left.capabilities = right.capabilities
  ecosystemScopes : record.ecosystemScopes.isEmpty = true → left.ecosystemScopes = right.ecosystemScopes
  writeScopes : record.writeScopes.isEmpty = true → left.writeScopes = right.writeScopes
  networkScopes : record.networkScopes.isEmpty = true → left.networkScopes = right.networkScopes
  privilegeLevel : record.privilegeLevel.isEmpty = true → left.privilegeLevel = right.privilegeLevel
  scriptSha256 : record.scriptSha256.isEmpty = true → left.scriptSha256 = right.scriptSha256
  bootstrapSha256 : record.bootstrapSha256.isEmpty = true → left.bootstrapSha256 = right.bootstrapSha256

/-! ## Stores that syncs lead to -/

/-- One call of `sync_records`.  The records of files and of the configuration have no
script. -/
structure SyncCall where
  env : RegistryEnv
  fetchPayloads : Bool
  replaceMissing : Bool
  keepsMeta : Bool
  origins : List Path
  records : List RegistryRecord
  bare : ∀ record ∈ records, record.script = ""

def SyncCall.run (store : RegistryStore) (call : SyncCall) : RegistryStore :=
  syncRecords call.env call.fetchPayloads call.replaceMissing call.keepsMeta call.origins call.records store

/-- A store behind a sequence of syncs. -/
def syncedStore (calls : List SyncCall) : RegistryStore := calls.foldl SyncCall.run {}

/-- Scripts that are read back are scripts. -/
def ScriptsValid (store : RegistryStore) : Prop :=
  ∀ name record, readRecord store name = some record →
    record.script.isEmpty = true ∨ isValidPluginScript record.script = true

theorem settlePayload_other {env : RegistryEnv} {fetchPayloads : Bool} {record : RegistryRecord}
    (other : canMaterializePlugin record = false) : settlePayload env fetchPayloads record = record := by
  have located : locateBundle env record = record := by simp [locateBundle, other]
  have trusted : dropUntrusted env record = record := by simp [dropUntrusted, other]
  have fetched : fetchPayload env record = record := by simp [fetchPayload, other]
  have matched : dropMismatched env record = record := by simp [dropMismatched, other]
  simp only [settlePayload, located, trusted, fetched, ite_self, matched]

theorem canMaterializePlugin_clear (record : RegistryRecord) :
    canMaterializePlugin (clearPayload record) = canMaterializePlugin record := rfl

theorem inheritedRecord_script {store : RegistryStore} {record : RegistryRecord} (valid : ScriptsValid store)
    (bare : record.script = "") :
    (inheritedRecord store record).script.isEmpty = true ∨
      isValidPluginScript (inheritedRecord store record).script = true := by
  simp only [inheritedRecord]
  split
  · simp [bare]
  · rename_i existing found
    rw [inheritPayload]
    split
    · simp [inheritFields, bare]
    · exact valid _ existing found

/-- A record that is written and read back has a valid script, if it has one. -/
theorem desiredRecord_script {env : RegistryEnv} {fetchPayloads : Bool} {store : RegistryStore}
    {record restored : RegistryRecord} (valid : ScriptsValid store) (bare : record.script = "")
    (read : restoredRecord (desiredRecord env fetchPayloads store record) = some restored) :
    restored.script.isEmpty = true ∨ isValidPluginScript restored.script = true := by
  have same : restored.script = (desiredRecord env fetchPayloads store record).script := by
    rw [restoredRecord_eq_some read]
  rw [same]
  cases plugin : canMaterializePlugin (inheritedRecord store record) with
  | false =>
      rw [desiredRecord_eq, settlePayload_other plugin]
      exact inheritedRecord_script valid bare
  | true =>
      have still : canMaterializePlugin (desiredRecord env fetchPayloads store record) = true := by
        rw [desiredRecord_eq, ← canMaterializePlugin_clear, settlePayload_clear, canMaterializePlugin_clear]
        exact plugin
      cases empty : (desiredRecord env fetchPayloads store record).script.isEmpty with
      | true => exact Or.inl rfl
      | false =>
          apply Or.inr
          cases script : isValidPluginScript (desiredRecord env fetchPayloads store record).script with
          | true => rfl
          | false =>
              rw [restoredRecord] at read
              simp [still, empty, script] at read

/-- Records without a script of their own leave scripts valid. -/
theorem syncRecords_scriptsValid {store : RegistryStore} (valid : ScriptsValid store) {env : RegistryEnv}
    {fetchPayloads replaceMissing keepsMeta : Bool} {origins : List Path} {records : List RegistryRecord}
    (bare : ∀ record ∈ records, record.script = "") :
    ScriptsValid (syncRecords env fetchPayloads replaceMissing keepsMeta origins records store) := by
  intro name restored read
  obtain ⟨stored, found, restoring⟩ := Option.bind_eq_some_iff.mp read
  rcases syncRecords_stored found with before | ⟨record, last, rfl⟩
  · apply valid name restored
    rw [readRecord, before]
    exact restoring
  · exact desiredRecord_script valid (bare record (lastNamed_mem last)) restoring

theorem syncedStore_scriptsValid (calls : List SyncCall) : ScriptsValid (syncedStore calls) := by
  have start : ScriptsValid ({} : RegistryStore) := by
    intro name record read
    cases read
  rw [syncedStore]
  generalize ({} : RegistryStore) = store at start
  induction calls generalizing store with
  | nil => exact start
  | cons call calls ih => exact ih (call.run store) (syncRecords_scriptsValid start call.bare)

/-! ## A full sync -/

section Full

variable {env : RegistryEnv} {store : RegistryStore} {records : List RegistryRecord} {name : String}

/-- The fields a record is read back with. -/
def inheritedFields (existing record : RegistryRecord) : RecordFields where
  source := record.source
  isAlias := record.isAlias
  role := orElseText record.role existing.role
  targetSystem := orElseText record.targetSystem existing.targetSystem
  capabilities := splitLines (joinLines (orElseList record.capabilities existing.capabilities))
  ecosystemScopes := splitLines (joinLines (orElseList record.ecosystemScopes existing.ecosystemScopes))
  writeScopes := orElseList record.writeScopes existing.writeScopes
  networkScopes := orElseList record.networkScopes existing.networkScopes
  privilegeLevel := orElseText record.privilegeLevel existing.privilegeLevel
  scriptSha256 := orElseText record.scriptSha256 existing.scriptSha256
  bootstrapSha256 := orElseText record.bootstrapSha256 existing.bootstrapSha256

theorem orElseText_empty (value : String) : orElseText value "" = value := by
  by_cases empty : value.isEmpty = true
  · have same : value = "" := String.isEmpty_iff.mp empty
    simp [orElseText, same]
  · simp [orElseText, empty]

theorem orElseList_empty {α : Type} (values : List α) : orElseList values [] = values := by
  cases values with
  | nil => rfl
  | cons value values => rfl

theorem restored_fields {record restored : RegistryRecord}
    (read : restoredRecord (desiredRecord env false store record) = some restored) :
    recordFields restored = inheritedFields (inheritable store (toLowerCopy record.name)) record := by
  have cleared : clearPayload (desiredRecord env false store record) =
      clearPayload (inheritedRecord store record) := by
    rw [desiredRecord_eq, settlePayload_clear]
  rw [restoredRecord_eq_some read, eq_with_payload cleared, inheritable]
  cases existed : readRecord store (toLowerCopy record.name) with
  | none =>
      have base : inheritedRecord store record = { record with name := toLowerCopy record.name } := by
        simp [inheritedRecord, existed]
      simp [base, recordFields, inheritedFields, orElseText_empty, orElseList_empty]
  | some existing =>
      have base : clearPayload (inheritedRecord store record) =
          clearPayload (inheritFields existing { record with name := toLowerCopy record.name }) := by
        simp only [inheritedRecord, existed]
        exact inheritPayload_clear _ _
      rw [eq_with_payload base]
      rfl

theorem inheritedRecord_source (record : RegistryRecord) :
    (inheritedRecord store record).source = record.source := by
  simp only [inheritedRecord]
  split
  · rfl
  · rename_i existing found
    have cleared := congrArg RegistryRecord.source
      (inheritPayload_clear existing (inheritFields existing { record with name := toLowerCopy record.name }))
    exact cleared

/-- A record that is written without fetching is read back when its source is not empty. -/
theorem desiredRecord_restored {record : RegistryRecord} (valid : ScriptsValid store)
    (bare : record.script = "") (source : record.source.isEmpty = false) :
    (restoredRecord (desiredRecord env false store record)).isSome = true := by
  have kept : (desiredRecord env false store record).source = record.source := by
    have settled := congrArg RegistryRecord.source (@settlePayload_clear env false (inheritedRecord store record))
    rw [desiredRecord_eq]
    exact settled.trans (inheritedRecord_source record)
  have script : (desiredRecord env false store record).script.isEmpty = true ∨
      isValidPluginScript (desiredRecord env false store record).script = true := by
    rw [desiredRecord_eq]
    rcases @settlePayload_script env false (inheritedRecord store record) with none | same | ⟨fetching, _⟩
    · simp [none]
    · rw [same]
      exact inheritedRecord_script valid bare
    · cases fetching
  rw [restoredRecord, kept, source]
  rcases script with empty | valid
  · simp [empty]
  · simp [valid]

/-- What a full sync leaves to be read. -/
theorem fullSync_fields (valid : ScriptsValid store) (bare : ∀ record ∈ records, record.script = "")
    (sourced : ∀ record ∈ records, record.source.isEmpty = false) :
    storedFields (syncRecords env false true true [] records store) name =
      (lastNamed records name).map (inheritedFields (inheritable store name)) := by
  rw [storedFields]
  cases last : lastNamed records name with
  | none =>
      rw [fullSync_unread last]
      rfl
  | some record =>
      have readable := @desiredRecord_restored env store record valid (bare record (lastNamed_mem last))
        (sourced record (lastNamed_mem last))
      obtain ⟨restored, read⟩ := Option.isSome_iff_exists.mp readable
      have found : readRecord (syncRecords env false true true [] records store) name = some restored := by
        rw [readRecord, fullSync_get, last]
        exact read
      rw [found, Option.map_some, Option.map_some, restored_fields read, lastNamed_name last]

/-- The lists of a record that was read back come back the same. -/
theorem inheritable_lines (store : RegistryStore) (name : String) :
    splitLines (joinLines (inheritable store name).capabilities) = (inheritable store name).capabilities ∧
      splitLines (joinLines (inheritable store name).ecosystemScopes) =
        (inheritable store name).ecosystemScopes := by
  rw [inheritable]
  cases found : readRecord store name with
  | none => exact ⟨rfl, rfl⟩
  | some restored =>
      obtain ⟨stored, _, read⟩ := Option.bind_eq_some_iff.mp found
      rw [Option.getD_some, restoredRecord_eq_some read]
      exact ⟨splitLines_idem _, splitLines_idem _⟩

theorem orElseText_eq_iff {value first second : String} :
    orElseText value first = orElseText value second ↔ (value.isEmpty = true → first = second) := by
  by_cases empty : value.isEmpty = true
  · simp [orElseText, empty]
  · simp [orElseText, empty]

theorem orElseList_eq_iff {α : Type} {values first second : List α} :
    orElseList values first = orElseList values second ↔ (values.isEmpty = true → first = second) := by
  cases values with
  | nil => simp [orElseList]
  | cons value values => simp [orElseList]

theorem orElseLines_eq_iff {values first second : List String} (kept : splitLines (joinLines first) = first)
    (otherKept : splitLines (joinLines second) = second) :
    splitLines (joinLines (orElseList values first)) = splitLines (joinLines (orElseList values second)) ↔
      (values.isEmpty = true → first = second) := by
  cases values with
  | nil => simp [orElseList, kept, otherKept]
  | cons value values => simp [orElseList]

/-- The fields that are read back are equal exactly when what is inherited is. -/
theorem inheritedFields_eq_iff {record : RegistryRecord} {left right : RegistryStore} :
    inheritedFields (inheritable left name) record = inheritedFields (inheritable right name) record ↔
      AgreeWhereEmpty record (inheritable left name) (inheritable right name) := by
  obtain ⟨leftCapabilities, leftScopes⟩ := inheritable_lines left name
  obtain ⟨rightCapabilities, rightScopes⟩ := inheritable_lines right name
  simp only [inheritedFields, RecordFields.mk.injEq, orElseText_eq_iff, orElseList_eq_iff,
    orElseLines_eq_iff leftCapabilities rightCapabilities, orElseLines_eq_iff leftScopes rightScopes, true_and]
  apply Iff.intro
  · intro fields
    obtain ⟨role, targetSystem, capabilities, ecosystemScopes, writeScopes, networkScopes, privilegeLevel,
      scriptSha256, bootstrapSha256⟩ := fields
    exact ⟨role, targetSystem, capabilities, ecosystemScopes, writeScopes, networkScopes, privilegeLevel,
      scriptSha256, bootstrapSha256⟩
  · intro agree
    exact ⟨agree.role, agree.targetSystem, agree.capabilities, agree.ecosystemScopes, agree.writeScopes,
      agree.networkScopes, agree.privilegeLevel, agree.scriptSha256, agree.bootstrapSha256⟩

end Full

/-- Two stores that syncs led to are read alike behind a full sync of the same commit if
and only if they agreed on what its records leave empty. -/
theorem full_sync_agrees (leftEnv rightEnv : RegistryEnv) (leftCalls rightCalls : List SyncCall)
    (location : RegistryLocation) (tree : RegistryTree) (records : List RegistryRecord)
    (parsed : registryRecords location tree = some records) :
    (∀ name, storedFields (syncFull leftEnv location tree (syncedStore leftCalls)) name =
        storedFields (syncFull rightEnv location tree (syncedStore rightCalls)) name) ↔
      ∀ name record, lastNamed records name = some record →
        AgreeWhereEmpty record (inheritable (syncedStore leftCalls) name)
          (inheritable (syncedStore rightCalls) name) := by
  have bare : ∀ record ∈ records, record.script = "" := by
    intro record member
    obtain ⟨path, declared⟩ := parseFiles_declares parsed record member
    rw [← declared.payload]
  have sourced : ∀ record ∈ records, record.source.isEmpty = false := by
    intro record member
    obtain ⟨path, declared⟩ := parseFiles_declares parsed record member
    exact declared.source
  have fields (env : RegistryEnv) (calls : List SyncCall) (name : String) :
      storedFields (syncFull env location tree (syncedStore calls)) name =
        (lastNamed records name).map (inheritedFields (inheritable (syncedStore calls) name)) := by
    rw [syncFull, parsed]
    exact fullSync_fields (syncedStore_scriptsValid calls) bare sourced
  simp only [fields]
  apply forall_congr'
  intro name
  cases last : lastNamed records name with
  | none => simp
  | some record =>
      simp only [Option.map_some, Option.some.injEq, forall_eq']
      exact inheritedFields_eq_iff

/-! ## A write scope that was taken back -/

def scopedFile (scopes : List WriteScopeNode) : TreeFile where
  path := ["registry", "apt.json"]
  content := some
    { schemaVersion := 1, name := some "apt", source := some "https://example.org/apt.lua",
      writeScopes := scopes }

def scopedTree (scopes : List WriteScopeNode) : RegistryTree where
  files := [scopedFile scopes]
  named := by simp [scopedFile, Path.Plain]
  distinct := by simp [scopedFile]

/-- The full sync of one commit as a call. -/
def fullSyncCall (location : RegistryLocation) (tree : RegistryTree) : SyncCall where
  env := bareEnv
  fetchPayloads := false
  replaceMissing := true
  keepsMeta := true
  origins := []
  records := (registryRecords location tree).getD []
  bare := by
    intro record member
    cases parsed : registryRecords location tree with
    | none =>
        rw [parsed] at member
        cases member
    | some records =>
        rw [parsed] at member
        obtain ⟨path, declared⟩ := parseFiles_declares parsed record member
        rw [← declared.payload]

theorem full_sync_agrees_scopes :
    ∃ records, registryRecords registryLocation (scopedTree []) = some records ∧
      ((∀ name, storedFields (syncFull bareEnv registryLocation (scopedTree [])
            (syncedStore [fullSyncCall registryLocation (scopedTree [⟨some "path", "/"⟩])])) name =
          storedFields (syncFull bareEnv registryLocation (scopedTree []) (syncedStore [])) name) ↔
        ∀ name record, lastNamed records name = some record →
          AgreeWhereEmpty record
            (inheritable (syncedStore [fullSyncCall registryLocation (scopedTree [⟨some "path", "/"⟩])]) name)
            (inheritable (syncedStore []) name)) := by
  obtain ⟨records, parsed⟩ := Option.isSome_iff_exists.mp
    (show (registryRecords registryLocation (scopedTree [])).isSome = true by decide +kernel)
  exact ⟨records, parsed, full_sync_agrees _ _ _ _ _ _ records parsed⟩

/-- A scope that the registry file does not have any more is still granted where it was
synced before. -/
theorem removed_scope_survives :
    ¬ ∀ (leftEnv rightEnv : RegistryEnv) (leftCalls rightCalls : List SyncCall) (location : RegistryLocation)
      (tree : RegistryTree) (records : List RegistryRecord), registryRecords location tree = some records →
      ∀ name, storedFields (syncFull leftEnv location tree (syncedStore leftCalls)) name =
        storedFields (syncFull rightEnv location tree (syncedStore rightCalls)) name := by
  intro all
  obtain ⟨records, parsed⟩ := Option.isSome_iff_exists.mp
    (show (registryRecords registryLocation (scopedTree [])).isSome = true by decide +kernel)
  have same := all bareEnv bareEnv [fullSyncCall registryLocation (scopedTree [⟨some "path", "/"⟩])] []
    registryLocation (scopedTree []) records parsed "apt"
  have stale : (storedFields (syncFull bareEnv registryLocation (scopedTree [])
      (syncedStore [fullSyncCall registryLocation (scopedTree [⟨some "path", "/"⟩])])) "apt").map
        RecordFields.writeScopes = some [⟨"path", "/"⟩] := by
    decide +kernel
  have fresh : (storedFields (syncFull bareEnv registryLocation (scopedTree []) (syncedStore [])) "apt").map
      RecordFields.writeScopes = some [] := by
    decide +kernel
  rw [same, fresh] at stale
  cases stale

end ReqPack.Registry
