import Mathlib.Data.String.Basic
import ReqPack.Data.KeyValue
import ReqPack.Registry.Record

/-! # Writing registry records

`RegistryDatabase::sync_records` and `write_records`.  A new record takes over what it
leaves empty from the record that is stored under its name, and the payload of
that record as long as the source stays the same.
-/

namespace ReqPack.Registry

open ReqPack.Data ReqPack.Core
open ReqPack.Planner (trimCopy toLowerCopy)

/-- The records by name, as they were written. -/
abbrev RegistryStore := KeyValue String RegistryRecord

/-- `RegistryDatabase::load_record`. -/
def loadRecord (store : RegistryStore) (name : String) : Option RegistryRecord :=
  (store.get (toLowerCopy name)).bind restoredRecord

/-- `RegistryDatabase::load_all_records`, with the names the records are stored under. -/
def loadAllRecords (store : RegistryStore) : List (String × RegistryRecord) :=
  store.entries.filterMap fun entry => (restoredRecord entry.2).map fun record => (entry.1, record)

section Fields

def orElseText (value other : String) : String := if value.isEmpty then other else value

def orElseList {α : Type} (values others : List α) : List α := if values.isEmpty then others else values

/-- The fields a record takes over from the stored one. -/
def inheritFields (existing record : RegistryRecord) : RegistryRecord :=
  { record with
    originPath := orElseList record.originPath existing.originPath
    description := orElseText record.description existing.description
    role := orElseText record.role existing.role
    targetSystem := orElseText record.targetSystem existing.targetSystem
    capabilities := orElseList record.capabilities existing.capabilities
    ecosystemScopes := orElseList record.ecosystemScopes existing.ecosystemScopes
    writeScopes := orElseList record.writeScopes existing.writeScopes
    networkScopes := orElseList record.networkScopes existing.networkScopes
    privilegeLevel := orElseText record.privilegeLevel existing.privilegeLevel
    scriptSha256 := orElseText record.scriptSha256 existing.scriptSha256
    bootstrapSha256 := orElseText record.bootstrapSha256 existing.bootstrapSha256 }

/-- The payload of the stored record is kept as long as source and alias flag are. -/
def inheritPayload (existing record : RegistryRecord) : RegistryRecord :=
  if existing.source != record.source || existing.isAlias != record.isAlias then record
  else
    { record with
      script := existing.script
      bootstrapScript := existing.bootstrapScript
      bundleSource := existing.bundleSource
      bundlePath := existing.bundlePath }

def clearPayload (record : RegistryRecord) : RegistryRecord :=
  { record with script := "", bootstrapScript := "", bundleSource := false, bundlePath := "" }

end Fields

section Settle

variable (env : RegistryEnv)

def locateBundle (record : RegistryRecord) : RegistryRecord :=
  if canMaterializePlugin record && !record.bundleSource then
    match env.resolveBundlePath record.source record.name with
    | none => record
    | some path => { record with bundleSource := true, bundlePath := path }
  else record

def dropUntrusted (record : RegistryRecord) : RegistryRecord :=
  if canMaterializePlugin record && !passesThinLayerTrust env record then clearPayload record else record

def fetchPayload (record : RegistryRecord) : RegistryRecord :=
  if canMaterializePlugin record && (record.script.isEmpty || !matchesExpectedHashes env record) then
    match env.fetchPluginPayload record.source record.name with
    | none => record
    | some payload =>
        match env.resolveBundlePath record.source record.name with
        | some path =>
            { record with
              script := payload.1, bootstrapScript := payload.2, bundleSource := true, bundlePath := path }
        | none =>
            { record with
              script := payload.1, bootstrapScript := payload.2, bundleSource := false, bundlePath := "" }
  else record

def dropMismatched (record : RegistryRecord) : RegistryRecord :=
  if canMaterializePlugin record && !record.script.isEmpty && !matchesExpectedHashes env record then
    clearPayload record
  else record

/-- What `sync_records` does to the payload of a record. -/
def settlePayload (fetchPayloads : Bool) (record : RegistryRecord) : RegistryRecord :=
  let trusted := dropUntrusted env (locateBundle env record)
  dropMismatched env (if fetchPayloads then fetchPayload env trusted else trusted)

/-- The record `sync_records` writes for a new one. -/
def desiredRecord (fetchPayloads : Bool) (store : RegistryStore) (record : RegistryRecord) : RegistryRecord :=
  let named := { record with name := toLowerCopy record.name }
  settlePayload env fetchPayloads
    (match loadRecord store named.name with
      | none => named
      | some existing => inheritPayload existing (inheritFields existing named))

/-- The last record of a name is the one that is written. -/
def desiredRecords (fetchPayloads : Bool) (store : RegistryStore) (records : List RegistryRecord) :
    RegistryStore :=
  records.foldl (fun desired record =>
    let wanted := desiredRecord env fetchPayloads store record
    desired.put wanted.name wanted) {}

def namesToDelete (store desired : RegistryStore) (replaceMissing : Bool)
    (originPathsToDelete : List (List String)) : List String :=
  ((loadAllRecords store).filter fun entry =>
    (replaceMissing && (desired.get entry.1).isNone) ||
      originPathsToDelete.contains entry.2.originPath).map (·.1)

/-- `RegistryDatabase::sync_records`; `keepsMeta` stands for meta values that are written along. -/
def syncRecords (fetchPayloads replaceMissing keepsMeta : Bool) (originPathsToDelete : List (List String))
    (records : List RegistryRecord) (store : RegistryStore) : RegistryStore :=
  let desired := desiredRecords env fetchPayloads store records
  let deleted := namesToDelete store desired replaceMissing originPathsToDelete
  let hasChanges := !deleted.isEmpty || keepsMeta || desired.entries.any fun entry =>
    loadRecord store entry.1 != some entry.2
  if hasChanges then
    desired.entries.foldl (fun written entry => written.put entry.1 entry.2) (store.eraseKeys deleted)
  else store

end Settle

section Explicit

/-- An entry of `RegistrySourceMap`. -/
structure RegistrySourceEntry where
  source : String
  isAlias : Bool := false
  description : String := ""
  role : String := ""
  targetSystem : String := ""
  capabilities : List String := []
  ecosystemScopes : List String := []
  writeScopes : List RegistryWriteScope := []
  networkScopes : List RegistryNetworkScope := []
  privilegeLevel : String := ""
  scriptSha256 : String := ""
  bootstrapSha256 : String := ""
deriving Repr, DecidableEq

def recordOfSource (name : String) (entry : RegistrySourceEntry) : RegistryRecord :=
  { name := toLowerCopy name, source := entry.source, isAlias := entry.isAlias,
    description := entry.description, role := entry.role, targetSystem := entry.targetSystem,
    capabilities := entry.capabilities, ecosystemScopes := entry.ecosystemScopes,
    writeScopes := entry.writeScopes, networkScopes := entry.networkScopes,
    privilegeLevel := entry.privilegeLevel, scriptSha256 := entry.scriptSha256,
    bootstrapSha256 := entry.bootstrapSha256 }

/-- `RegistryDatabase::write_records`. -/
def writeRecords (env : RegistryEnv) (sources : List (String × RegistrySourceEntry)) (store : RegistryStore) :
    RegistryStore :=
  syncRecords env true false false [] (sources.map fun entry => recordOfSource entry.1 entry.2) store

end Explicit

/-! ## What a sync leaves in the store -/

section Payload

variable {env : RegistryEnv}

theorem locateBundle_clear (record : RegistryRecord) :
    clearPayload (locateBundle env record) = clearPayload record := by
  simp only [locateBundle]
  split
  · split <;> rfl
  · rfl

theorem dropUntrusted_clear (record : RegistryRecord) :
    clearPayload (dropUntrusted env record) = clearPayload record := by
  simp only [dropUntrusted]
  split <;> rfl

theorem fetchPayload_clear (record : RegistryRecord) :
    clearPayload (fetchPayload env record) = clearPayload record := by
  simp only [fetchPayload]
  split
  · split
    · rfl
    · split <;> rfl
  · rfl

theorem dropMismatched_clear (record : RegistryRecord) :
    clearPayload (dropMismatched env record) = clearPayload record := by
  simp only [dropMismatched]
  split <;> rfl

/-- Nothing but the payload is touched. -/
theorem settlePayload_clear (fetchPayloads : Bool) (record : RegistryRecord) :
    clearPayload (settlePayload env fetchPayloads record) = clearPayload record := by
  simp only [settlePayload]
  rw [dropMismatched_clear]
  split
  · rw [fetchPayload_clear, dropUntrusted_clear, locateBundle_clear]
  · rw [dropUntrusted_clear, locateBundle_clear]

/-- The script behind a sync is absent, inherited or fetched. -/
theorem settlePayload_script (fetchPayloads : Bool) (record : RegistryRecord) :
    (settlePayload env fetchPayloads record).script = "" ∨
      (settlePayload env fetchPayloads record).script = record.script ∨
      (fetchPayloads = true ∧ ∃ payload, env.fetchPluginPayload record.source record.name = some payload ∧
        (settlePayload env fetchPayloads record).script = payload.1) := by
  have located : (locateBundle env record).script = record.script := by
    simp only [locateBundle]
    split
    · split <;> rfl
    · rfl
  have trusted : (dropUntrusted env (locateBundle env record)).script = "" ∨
      (dropUntrusted env (locateBundle env record)).script = record.script := by
    rw [dropUntrusted]
    split
    · exact Or.inl rfl
    · exact Or.inr located
  have same : clearPayload (dropUntrusted env (locateBundle env record)) = clearPayload record := by
    rw [dropUntrusted_clear, locateBundle_clear]
  have sources := congrArg RegistryRecord.source same
  have names := congrArg RegistryRecord.name same
  simp only [clearPayload] at sources names
  simp only [settlePayload]
  generalize dropUntrusted env (locateBundle env record) = kept at *
  have fetched : (if fetchPayloads then fetchPayload env kept else kept).script = kept.script ∨
      (fetchPayloads = true ∧ ∃ payload, env.fetchPluginPayload record.source record.name = some payload ∧
        (if fetchPayloads then fetchPayload env kept else kept).script = payload.1) := by
    cases fetchPayloads with
    | false => exact Or.inl rfl
    | true =>
        simp only [if_true, true_and]
        rw [fetchPayload, sources, names]
        split
        · cases payload : env.fetchPluginPayload record.source record.name with
          | none => exact Or.inl rfl
          | some given =>
              apply Or.inr
              refine ⟨given, rfl, ?_⟩
              simp only
              split <;> rfl
        · exact Or.inl rfl
  generalize (if fetchPayloads then fetchPayload env kept else kept) = settled at *
  rw [dropMismatched]
  split
  · exact Or.inl rfl
  · rcases fetched with unfetched | payload
    · rw [unfetched]
      rcases trusted with none | inherited
      · exact Or.inl none
      · exact Or.inr (Or.inl inherited)
    · exact Or.inr (Or.inr payload)

theorem inheritPayload_clear (existing record : RegistryRecord) :
    clearPayload (inheritPayload existing record) = clearPayload record := by
  simp only [inheritPayload]
  split <;> rfl

end Payload

section Desired

variable {env : RegistryEnv} {fetchPayloads : Bool} {store : RegistryStore}

/-- The record that can be read back under a key. -/
def readRecord (store : RegistryStore) (key : String) : Option RegistryRecord :=
  (store.get key).bind restoredRecord

/-- The last record of a name. -/
def lastNamed (records : List RegistryRecord) (name : String) : Option RegistryRecord :=
  records.reverse.find? fun record => toLowerCopy record.name == name

theorem lastNamed_name {records : List RegistryRecord} {name : String} {record : RegistryRecord}
    (last : lastNamed records name = some record) : toLowerCopy record.name = name := by
  simpa using List.find?_some last

theorem lastNamed_mem {records : List RegistryRecord} {name : String} {record : RegistryRecord}
    (last : lastNamed records name = some record) : record ∈ records :=
  List.mem_reverse.mp (List.mem_of_find?_eq_some last)

/-- The record before its payload is settled. -/
def inheritedRecord (store : RegistryStore) (record : RegistryRecord) : RegistryRecord :=
  let named := { record with name := toLowerCopy record.name }
  match readRecord store (toLowerCopy record.name) with
  | none => named
  | some existing => inheritPayload existing (inheritFields existing named)

theorem desiredRecord_eq (record : RegistryRecord) :
    desiredRecord env fetchPayloads store record =
      settlePayload env fetchPayloads (inheritedRecord store record) := by
  simp only [desiredRecord, inheritedRecord, loadRecord, readRecord, toLowerCopy_idem]

theorem desiredRecord_name (record : RegistryRecord) :
    (desiredRecord env fetchPayloads store record).name = toLowerCopy record.name := by
  have settled := congrArg RegistryRecord.name
    (@settlePayload_clear env fetchPayloads (inheritedRecord store record))
  rw [desiredRecord_eq]
  apply settled.trans
  simp only [inheritedRecord]
  split
  · rfl
  · exact congrArg RegistryRecord.name (inheritPayload_clear _ _)

theorem desiredRecords_get (records : List RegistryRecord) (name : String) :
    (desiredRecords env fetchPayloads store records).get name =
      (lastNamed records name).map (desiredRecord env fetchPayloads store) := by
  induction records using List.reverseRecOn with
  | nil => rfl
  | append_singleton records record ih =>
      simp only [desiredRecords, List.foldl_append, List.foldl_cons, List.foldl_nil, KeyValue.get_put] at ih ⊢
      rw [ih, desiredRecord_name, lastNamed, lastNamed, List.reverse_append, List.reverse_singleton,
        List.singleton_append, List.find?_cons]
      by_cases same : toLowerCopy record.name = name
      · simp [same]
      · have apart : (toLowerCopy record.name == name) = false := by simpa using same
        simp only [apart, Ne.symm same, if_false]

theorem mem_loadAllRecords {name : String} {record : RegistryRecord} :
    (name, record) ∈ loadAllRecords store ↔ readRecord store name = some record := by
  simp only [loadAllRecords, List.mem_filterMap, Option.map_eq_some_iff, readRecord, Option.bind_eq_some_iff,
    KeyValue.get_eq_some, Prod.mk.injEq]
  apply Iff.intro
  · intro found
    obtain ⟨⟨key, stored⟩, member, restored, read, rfl, rfl⟩ := found
    exact ⟨stored, member, read⟩
  · intro found
    obtain ⟨stored, member, read⟩ := found
    exact ⟨(name, stored), member, record, read, rfl, rfl⟩

theorem mem_namesToDelete {desired : RegistryStore} {replaceMissing : Bool} {origins : List (List String)}
    {name : String} :
    name ∈ namesToDelete store desired replaceMissing origins ↔
      ∃ record, readRecord store name = some record ∧
        ((replaceMissing = true ∧ desired.get name = none) ∨ record.originPath ∈ origins) := by
  simp only [namesToDelete, List.mem_map, List.mem_filter, Bool.or_eq_true, Bool.and_eq_true,
    Option.isNone_iff_eq_none, List.contains_iff_mem]
  apply Iff.intro
  · intro found
    obtain ⟨⟨key, record⟩, ⟨member, chosen⟩, rfl⟩ := found
    exact ⟨record, mem_loadAllRecords.1 member, chosen⟩
  · intro found
    obtain ⟨record, read, chosen⟩ := found
    exact ⟨(name, record), ⟨mem_loadAllRecords.2 read, chosen⟩, rfl⟩

/-- What a sync that writes leaves under a name: the last record it was given, nothing if
the name is deleted, else what was there. -/
theorem syncRecords_get {replaceMissing : Bool} {origins : List (List String)} {records : List RegistryRecord}
    {name : String} :
    (syncRecords env fetchPayloads replaceMissing true origins records store).get name =
      ((lastNamed records name).map (desiredRecord env fetchPayloads store)).or
        (if ∃ record, readRecord store name = some record ∧
            (replaceMissing = true ∨ record.originPath ∈ origins)
          then none else store.get name) := by
  have desired := @desiredRecords_get env fetchPayloads store records name
  simp only [syncRecords, Bool.or_true, Bool.true_or, if_true]
  rw [KeyValue.get_foldl_put (desiredRecords env fetchPayloads store records).sorted, ← desired,
    KeyValue.get_eraseKeys]
  cases found : (desiredRecords env fetchPayloads store records).get name with
  | some record =>
      simp only [KeyValue.get] at found
      rw [found]
      rfl
  | none =>
      have missing : ((desiredRecords env fetchPayloads store records).entries.find? fun entry =>
          decide (entry.1 = name)).map Prod.snd = none := found
      rw [missing]
      simp only [Option.none_or, mem_namesToDelete, found, and_true]

/-- A sync that finds every record stored already leaves the store alone, any other one
writes as if meta values were written along. -/
theorem syncRecords_cases {replaceMissing keepsMeta : Bool} {origins : List (List String)}
    {records : List RegistryRecord} :
    (syncRecords env fetchPayloads replaceMissing keepsMeta origins records store = store ∧
      ∀ name record, lastNamed records name = some record →
        readRecord store name = some (desiredRecord env fetchPayloads store record)) ∨
      syncRecords env fetchPayloads replaceMissing keepsMeta origins records store =
        syncRecords env fetchPayloads replaceMissing true origins records store := by
  simp only [syncRecords, Bool.or_true, Bool.true_or, if_true]
  split
  · exact Or.inr rfl
  · rename_i unchanged
    apply Or.inl
    refine ⟨rfl, fun name record last => ?_⟩
    simp only [Bool.or_eq_true, List.any_eq_true, not_or, not_exists, not_and, bne_iff_ne, ne_eq,
      not_not] at unchanged
    have wanted : (name, desiredRecord env fetchPayloads store record) ∈
        (desiredRecords env fetchPayloads store records).entries := by
      rw [← KeyValue.get_eq_some, desiredRecords_get, last]
      rfl
    have loaded := unchanged.2 _ wanted
    have lower : toLowerCopy name = name := by
      rw [← lastNamed_name last, toLowerCopy_idem]
    rw [loadRecord, lower] at loaded
    exact loaded

/-- What stands in the store behind a sync was there before or was written by it. -/
theorem syncRecords_stored {replaceMissing keepsMeta : Bool} {origins : List (List String)}
    {records : List RegistryRecord} {name : String} {stored : RegistryRecord}
    (found : (syncRecords env fetchPayloads replaceMissing keepsMeta origins records store).get name =
      some stored) :
    store.get name = some stored ∨
      ∃ record, lastNamed records name = some record ∧
        stored = desiredRecord env fetchPayloads store record := by
  rcases @syncRecords_cases env fetchPayloads store replaceMissing keepsMeta origins records with ⟨same, _⟩ | written
  · rw [same] at found
    exact Or.inl found
  · rw [written, syncRecords_get] at found
    cases last : lastNamed records name with
    | some record =>
        rw [last] at found
        exact Or.inr ⟨record, rfl, (Option.some.inj found).symm⟩
    | none =>
        rw [last, Option.map_none, Option.none_or] at found
        split at found
        · cases found
        · exact Or.inl found

end Desired

end ReqPack.Registry
