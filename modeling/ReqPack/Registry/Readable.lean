import ReqPack.Registry.Codec
import ReqPack.Registry.ConfiguredSources
import ReqPack.Registry.Payload

/-! # Whatever is written is read back

The reader refuses a record without a source and a plugin record whose script is blank or
looks like a page.  Every writer checks the scripts it stores, except that the run script
of a bundle is taken as it is.
-/

namespace ReqPack.Registry

open ReqPack.Data ReqPack.Core
open ReqPack.Planner (toLowerCopy)

/-- Every record that is stored under a name deserializes again. -/
def Readable (store : RegistryStore) : Prop :=
  ∀ name record, store.get (toLowerCopy name) = some record →
    (deserializeRecord (toLowerCopy name) (serializeRecord record)).isSome = true

/-- The records handed to `sync_records` come from registry files and from the
configuration, so that they have no script. -/
structure SyncRequest where
  host : RegistryHost
  fetchPayloads : Bool
  replaceMissing : Bool
  keepsMeta : Bool
  origins : List Path
  records : List RegistryRecord
  bare : ∀ record ∈ records, record.script = ""

/-- A call that writes records. -/
inductive WriteCall
  | syncRecords (request : SyncRequest)
  | refreshRecord (host : RegistryHost) (preferLatestTag : Bool) (name : String)
  | cacheScript (host : RegistryHost) (name script : String)

def WriteCall.run (store : RegistryStore) : WriteCall → RegistryStore
  | .syncRecords request =>
      Registry.syncRecords request.host.env request.fetchPayloads request.replaceMissing request.keepsMeta
        request.origins request.records store
  | .refreshRecord host preferLatestTag name => (Registry.refreshRecord host preferLatestTag name store).2
  | .cacheScript host name script => (Registry.cacheScript host name script store).2

/-- The store behind a sequence of calls on an empty database. -/
def writtenStore (calls : List WriteCall) : RegistryStore := calls.foldl WriteCall.run {}

/-! ## When a call stores what cannot be read -/

/-- A script that the reader refuses for a plugin. -/
def isRefusedScript (script : String) : Bool := !script.isEmpty && !isValidPluginScript script

/-- The run script of the bundle behind a source, which is fetched as it is. -/
def bundleScript (world : PayloadWorld) (source pluginName : String) : Option String :=
  if source.isEmpty then none
  else
    let directory :=
      if world.pathExists source && world.isDirectory source then some source
      else if isGitSource source && world.syncGitRepository source pluginName then
        some (world.gitRepositoryCachePath source pluginName)
      else none
    (directory.bind fun path => bundleFindRoot world path pluginName).map fun layout =>
      world.readTextFile layout.runScriptPath

/-- The bundle behind a source has a run script that the reader refuses, and it has the
hashes that the record is pinned to. -/
def RefusedBundle (host : RegistryHost) (source : String) (record : RegistryRecord) : Prop :=
  ∃ script, bundleScript host.world source record.name = some script ∧ isRefusedScript script = true ∧
    matchesExpectedHashes host.env (withPayload host source (script, "") record) = true

/-- The payload a plugin record has is not there or not the one it is pinned to. -/
def wantsPayload (env : RegistryEnv) (record : RegistryRecord) : Bool :=
  canMaterializePlugin record &&
    (!passesThinLayerTrust env record || record.script.isEmpty ||
      !matchesExpectedHashes env (locateBundle env record))

/-- The records that a sync writes have a source, and no bundle with a script that is
refused lies at the source of one that has to be fetched.  A record counts with what it
takes over from the stored one. -/
structure SyncRequest.Sound (request : SyncRequest) (store : RegistryStore) : Prop where
  sourced : ∀ name record, lastNamed request.records name = some record →
    record.source.isEmpty = false ∨ record.isAlias = true
  scripts : request.fetchPayloads = true → ∀ name record, lastNamed request.records name = some record →
    wantsPayload request.host.env (inheritedRecord store record) = true →
      ¬ RefusedBundle request.host record.source (inheritedRecord store record)

/-- No call stores what is refused. -/
def WriteCall.Sound (store : RegistryStore) : WriteCall → Prop
  | .syncRecords request => request.Sound store
  | .refreshRecord host preferLatestTag name =>
      ∀ record, resolveRecord store name = some record → canMaterializePlugin record = true →
        passesThinLayerTrust host.env record = true →
          ¬ RefusedBundle host (sourceForPayload host preferLatestTag record.source) record
  | .cacheScript _ _ _ => True

/-! ## Records that are read back -/

section Records

theorem restoredRecord_readable {record : RegistryRecord} :
    (restoredRecord record).isSome = true ↔
      (record.source.isEmpty = false ∨ record.isAlias = true) ∧
        ¬ (canMaterializePlugin record = true ∧ isRefusedScript record.script = true) := by
  simp only [restoredRecord, isRefusedScript]
  cases record.source.isEmpty <;> cases record.isAlias <;> cases canMaterializePlugin record <;>
    cases record.script.isEmpty <;> cases isValidPluginScript record.script <;> simp

theorem deserialize_isSome (name : String) (record : RegistryRecord) :
    (deserializeRecord name (serializeRecord record)).isSome = (restoredRecord record).isSome := by
  rw [deserialize_serialize, Option.isSome_map, Bool.eq_iff_iff, restoredRecord_readable,
    restoredRecord_readable]
  exact Iff.rfl

/-- A record that the reader does not refuse comes back under the name it is read by,
whatever text its path is. -/
theorem serialized_record_is_returned (name path : String) {record : RegistryRecord}
    (source : record.source ≠ "" ∨ record.isAlias = true)
    (script : record.script = "" ∨ isValidPluginScript record.script = true ∨ canMaterializePlugin record = false)
    (lines : ∀ line ∈ record.capabilities ++ record.ecosystemScopes, line ≠ "" ∧ '\n' ∉ line.toList) :
    deserializeRecord name (serializeRecord { record with originPath := pathOfText path }) =
      some { record with name := name, originPath := pathOfText path } := by
  have formed : ∀ line ∈ record.capabilities ++ record.ecosystemScopes, line.toList ≠ [] ∧ '\n' ∉ line.toList := by
    intro line member
    have plain := lines line member
    exact ⟨by simpa using plain.1, plain.2⟩
  have capabilities : splitLines (joinLines record.capabilities) = record.capabilities :=
    splitLines_joinLines_of fun line member => formed line (List.mem_append_left _ member)
  have ecosystemScopes : splitLines (joinLines record.ecosystemScopes) = record.ecosystemScopes :=
    splitLines_joinLines_of fun line member => formed line (List.mem_append_right _ member)
  have readable : (restoredRecord { record with name := name, originPath := pathOfText path }).isSome = true := by
    rw [restoredRecord_readable]
    refine ⟨source.imp (by simp) id, fun refused => ?_⟩
    obtain ⟨plugin, refused⟩ := refused
    simp only [isRefusedScript, Bool.and_eq_true, Bool.not_eq_true'] at refused
    rcases script with empty | valid | other
    · simp [empty] at refused
    · rw [valid] at refused
      exact absurd refused.2 (by simp)
    · exact absurd (other.symm.trans plugin) (by simp)
  obtain ⟨restored, read⟩ := Option.isSome_iff_exists.mp readable
  rw [deserialize_serialize, read, Option.map_some, restoredRecord_eq_some read, pathText_pathOfText]
  simp only [capabilities, ecosystemScopes]

/-- A record whose fields hold what the format uses itself. -/
def awkwardRecord : RegistryRecord where
  source := "git+https://host/tool\n---\n"
  description := "a=b\\n"
  capabilities := ["write|all", "=\\"]
  writeScopes := [{ kind := "pa|th", value := "/tmp\n\\|" }, { kind := "" }]
  networkScopes := [{ host := "a|b", scheme := "\\", pathPrefix := "\n" }]
  script := "\n---\nreturn plugin"

theorem serialized_awkward_record_is_returned :
    deserializeRecord "tool" (serializeRecord { awkwardRecord with originPath := pathOfText "//a/" }) =
      some { awkwardRecord with name := "tool", originPath := pathOfText "//a/" } :=
  serialized_record_is_returned "tool" "//a/" (Or.inl (by decide +kernel)) (Or.inr (Or.inl (by decide +kernel)))
    (by simp [awkwardRecord])

theorem readable_iff {store : RegistryStore} :
    Readable store ↔ ∀ name record, store.get (toLowerCopy name) = some record →
      (restoredRecord record).isSome = true := by
  simp only [Readable, deserialize_isSome]

theorem isRefusedScript_of_valid {script : String}
    (valid : script.isEmpty = true ∨ isValidPluginScript script = true) : isRefusedScript script = false := by
  rcases valid with empty | valid
  · simp [isRefusedScript, empty]
  · simp [isRefusedScript, valid]

/-- A record that was read is read again. -/
theorem restoredRecord_again {store : RegistryStore} {key : String} {record : RegistryRecord}
    (read : readRecord store key = some record) : (restoredRecord record).isSome = true := by
  obtain ⟨stored, _, restoring⟩ := Option.bind_eq_some_iff.mp read
  have readable := restoredRecord_readable.1 (Option.isSome_of_eq_some restoring)
  rw [restoredRecord_readable, restoredRecord_eq_some restoring]
  exact readable

theorem readRecord_putRecord (record : RegistryRecord) (store : RegistryStore) (key : String) :
    readRecord (putRecord record store) key =
      if key = toLowerCopy record.name then restoredRecord record else readRecord store key := by
  simp only [readRecord, putRecord, KeyValue.get_put]
  split <;> rfl

/-- Putting a record leaves a readable store readable exactly when the record can be read. -/
theorem readable_putRecord {store : RegistryStore} (readable : Readable store) (record : RegistryRecord) :
    Readable (putRecord record store) ↔ (restoredRecord record).isSome = true := by
  rw [readable_iff] at readable ⊢
  apply Iff.intro
  · intro after
    apply after record.name record
    rw [putRecord, KeyValue.get_put, if_pos rfl]
  · intro restored name stored found
    rw [putRecord, KeyValue.get_put] at found
    by_cases same : toLowerCopy name = toLowerCopy record.name
    · rw [if_pos same] at found
      cases found
      exact restored
    · rw [if_neg same] at found
      exact readable name stored found

theorem scriptsValid_putRecord {store : RegistryStore} (valid : ScriptsValid store) {record : RegistryRecord}
    (script : canMaterializePlugin record = false →
      record.script.isEmpty = true ∨ isValidPluginScript record.script = true) :
    ScriptsValid (putRecord record store) := by
  intro key restored read
  rw [readRecord_putRecord] at read
  by_cases same : key = toLowerCopy record.name
  · rw [if_pos same] at read
    have accepted := (restoredRecord_readable.1 (Option.isSome_of_eq_some read)).2
    rw [restoredRecord_eq_some read]
    cases plugin : canMaterializePlugin record with
    | false => exact script plugin
    | true =>
        simp only [plugin, true_and, isRefusedScript, Bool.and_eq_true, Bool.not_eq_true', not_and] at accepted
        cases empty : record.script.isEmpty with
        | true => exact Or.inl rfl
        | false => exact Or.inr (by simpa using accepted empty)
  · rw [if_neg same] at read
    exact valid key restored read

end Records

/-! ## Payloads -/

section Payloads

variable {host : RegistryHost} {world : PayloadWorld} {source pluginName : String}

theorem readPluginPayloadFiles_valid {scriptPath bootstrapPath : String} {payload : String × String}
    (read : readPluginPayloadFiles world scriptPath bootstrapPath = some payload) :
    isValidPluginScript payload.1 = true := by
  simp only [readPluginPayloadFiles, Option.ite_none_left_eq_some, Option.some.injEq] at read
  obtain ⟨_, valid, rfl⟩ := read
  simpa using valid

/-- What a directory gives is the run script of a bundle or has been checked. -/
theorem readPluginDirectory_cases {directory : String} {payload : String × String}
    (read : readPluginDirectory world directory pluginName = some payload) :
    isValidPluginScript payload.1 = true ∨
      ∃ layout, bundleFindRoot world directory pluginName = some layout ∧
        payload = (world.readTextFile layout.runScriptPath, "") := by
  simp only [readPluginDirectory] at read
  cases found : bundleFindRoot world directory pluginName with
  | none =>
      simp only [found] at read
      exact Or.inl (readPluginPayloadFiles_valid read)
  | some layout =>
      simp only [found, Option.some.injEq] at read
      exact Or.inr ⟨layout, rfl, read.symm⟩

/-- A payload has a script that has been checked or the run script of a bundle. -/
theorem fetchPluginPayload_cases {payload : String × String}
    (fetched : fetchPluginPayload world source pluginName = some payload) :
    isValidPluginScript payload.1 = true ∨
      (bundleScript world source pluginName = some payload.1 ∧ payload.2 = "") := by
  simp only [fetchPluginPayload, Option.ite_none_left_eq_some] at fetched
  obtain ⟨named, fetched⟩ := fetched
  simp only [bundleScript, if_neg named]
  by_cases directory : (world.pathExists source && world.isDirectory source) = true
  · rw [if_pos directory] at fetched ⊢
    rcases readPluginDirectory_cases fetched with valid | ⟨layout, found, rfl⟩
    · exact Or.inl valid
    · simp [found]
  · rw [if_neg directory] at fetched ⊢
    by_cases git : isGitSource source = true
    · rw [if_pos git] at fetched
      simp only [fetchGitPluginPayload, Option.ite_none_left_eq_some, Bool.not_eq_true', Bool.not_eq_false] at fetched
      obtain ⟨synced, fetched⟩ := fetched
      rcases readPluginDirectory_cases fetched with valid | ⟨layout, found, rfl⟩
      · exact Or.inl valid
      · simp [git, synced, found]
    · rw [if_neg git] at fetched
      apply Or.inl
      split at fetched
      · simp only [Option.ite_none_left_eq_some, Option.some.injEq] at fetched
        obtain ⟨valid, rfl⟩ := fetched
        simpa using valid
      · split at fetched
        · cases fetched
        · simp only [Option.ite_none_left_eq_some, Option.some.injEq] at fetched
          obtain ⟨valid, rfl⟩ := fetched
          simpa using valid

/-- The run script of a bundle is what is fetched. -/
theorem fetchPluginPayload_bundle {script : String} (bundle : bundleScript world source pluginName = some script) :
    fetchPluginPayload world source pluginName = some (script, "") := by
  simp only [bundleScript, Option.ite_none_left_eq_some, Option.map_eq_some_iff, Option.bind_eq_some_iff] at bundle
  obtain ⟨named, layout, ⟨path, directory, found⟩, rfl⟩ := bundle
  have read : readPluginDirectory world path pluginName =
      some (world.readTextFile layout.runScriptPath, "") := by
    simp [readPluginDirectory, found]
  rw [fetchPluginPayload, if_neg named]
  by_cases here : (world.pathExists source && world.isDirectory source) = true
  · rw [if_pos here, Option.some.injEq] at directory
    rw [if_pos here, directory, read]
  · rw [if_neg here] at directory ⊢
    simp only [Option.ite_none_right_eq_some, Bool.and_eq_true, Option.some.injEq] at directory
    obtain ⟨⟨git, synced⟩, rfl⟩ := directory
    rw [if_pos git, fetchGitPluginPayload, synced]
    simpa using read

/-- A script that is refused is stored from a bundle and from nowhere else. -/
theorem refusedBundle_iff {record : RegistryRecord} :
    RefusedBundle host source record ↔
      ∃ payload, fetchPluginPayload host.world source record.name = some payload ∧
        isRefusedScript payload.1 = true ∧
        matchesExpectedHashes host.env (withPayload host source payload record) = true := by
  apply Iff.intro
  · intro refusal
    obtain ⟨script, bundle, refused, hashes⟩ := refusal
    exact ⟨(script, ""), fetchPluginPayload_bundle bundle, refused, hashes⟩
  · intro refusal
    obtain ⟨⟨script, bootstrap⟩, fetched, refused, hashes⟩ := refusal
    rcases fetchPluginPayload_cases fetched with valid | ⟨bundle, bare⟩
    · rw [isRefusedScript_of_valid (Or.inr valid)] at refused
      cases refused
    · simp only at bare bundle refused hashes
      subst bare
      exact ⟨script, bundle, refused, hashes⟩

theorem withPayload_script (payload : String × String) (record : RegistryRecord) :
    (withPayload host source payload record).script = payload.1 := by
  simp only [withPayload]
  split <;> rfl

theorem withPayload_clear (payload : String × String) (record : RegistryRecord) :
    clearPayload (withPayload host source payload record) = clearPayload record := by
  simp only [withPayload]
  split <;> rfl

/-- A payload covers what was there before. -/
theorem withPayload_over {payload : String × String} {left right : RegistryRecord}
    (same : clearPayload left = clearPayload right) :
    withPayload host source payload left = withPayload host source payload right := by
  rw [eq_with_payload same]
  simp only [withPayload]

theorem fetchPayload_eq (record : RegistryRecord) :
    fetchPayload host.env record =
      if canMaterializePlugin record && (record.script.isEmpty || !matchesExpectedHashes host.env record) then
        match fetchPluginPayload host.world record.source record.name with
        | none => record
        | some payload => withPayload host record.source payload record
      else record := rfl

end Payloads

/-! ## What one call leaves -/

section Steps

variable {host : RegistryHost} {store : RegistryStore}

/-- A payload that is dropped leaves no script; any other one is kept. -/
theorem dropMismatched_refused {env : RegistryEnv} {record : RegistryRecord}
    (plugin : canMaterializePlugin record = true) :
    isRefusedScript (dropMismatched env record).script = true ↔
      isRefusedScript record.script = true ∧ matchesExpectedHashes env record = true := by
  simp only [dropMismatched, plugin, Bool.true_and]
  cases hashes : matchesExpectedHashes env record with
  | true => simp
  | false =>
      cases empty : record.script.isEmpty with
      | true => simp [isRefusedScript, empty]
      | false => simp [isRefusedScript, clearPayload]

/-- The payload a record comes to a fetch with. -/
theorem dropUntrusted_locateBundle {env : RegistryEnv} {record : RegistryRecord}
    (plugin : canMaterializePlugin record = true) :
    dropUntrusted env (locateBundle env record) =
      if passesThinLayerTrust env record then locateBundle env record else clearPayload record := by
  have same := @locateBundle_clear env record
  have located : canMaterializePlugin (locateBundle env record) = true := by
    rw [← canMaterializePlugin_clear, same, canMaterializePlugin_clear]
    exact plugin
  have trust : passesThinLayerTrust env (locateBundle env record) = passesThinLayerTrust env record := by
    rw [eq_with_payload same]
    rfl
  rw [dropUntrusted, located, trust, same]
  cases passesThinLayerTrust env record with
  | true => rfl
  | false => rfl

theorem locateBundle_script {env : RegistryEnv} (record : RegistryRecord) :
    (locateBundle env record).script = record.script := by
  simp only [locateBundle]
  split
  · split <;> rfl
  · rfl

/-- The payload that is kept has a script that is refused only where a bundle was fetched. -/
theorem settlePayload_refused {fetchPayloads : Bool} {record : RegistryRecord}
    (plugin : canMaterializePlugin record = true) (accepted : isRefusedScript record.script = false) :
    isRefusedScript (settlePayload host.env fetchPayloads record).script = true ↔
      fetchPayloads = true ∧ wantsPayload host.env record = true ∧
        RefusedBundle host record.source record := by
  have same : clearPayload (dropUntrusted host.env (locateBundle host.env record)) = clearPayload record := by
    rw [dropUntrusted_clear, locateBundle_clear]
  have kept : canMaterializePlugin (dropUntrusted host.env (locateBundle host.env record)) = true := by
    rw [← canMaterializePlugin_clear, same, canMaterializePlugin_clear]
    exact plugin
  have script : isRefusedScript (dropUntrusted host.env (locateBundle host.env record)).script = false := by
    rw [dropUntrusted_locateBundle plugin]
    split
    · rw [locateBundle_script]
      exact accepted
    · rfl
  have wants : wantsPayload host.env record =
      ((dropUntrusted host.env (locateBundle host.env record)).script.isEmpty ||
        !matchesExpectedHashes host.env (dropUntrusted host.env (locateBundle host.env record))) := by
    rw [dropUntrusted_locateBundle plugin, wantsPayload, plugin]
    cases passesThinLayerTrust host.env record with
    | true => simp [locateBundle_script]
    | false => simp [clearPayload]
  have source := congrArg RegistryRecord.source same
  have name := congrArg RegistryRecord.name same
  simp only [clearPayload] at source name
  simp only [settlePayload]
  generalize dropUntrusted host.env (locateBundle host.env record) = trusted at *
  cases fetchPayloads with
  | false => simp [dropMismatched_refused kept, script]
  | true =>
      simp only [if_true, true_and]
      rw [fetchPayload_eq, kept, Bool.true_and, ← wants]
      cases wanted : wantsPayload host.env record with
      | false => simp [dropMismatched_refused kept, script]
      | true =>
          simp only [if_true, true_and]
          rw [refusedBundle_iff, source, name]
          cases fetched : fetchPluginPayload host.world record.source record.name with
          | none => simp [dropMismatched_refused kept, script]
          | some payload =>
              have still : canMaterializePlugin (withPayload host record.source payload trusted) = true := by
                rw [← canMaterializePlugin_clear, withPayload_clear, canMaterializePlugin_clear]
                exact kept
              simp only [Option.some.injEq, exists_eq_left']
              rw [dropMismatched_refused still, withPayload_script, withPayload_over same]

/-- The record a sync writes can be read exactly when it has a source and no script that is
refused was fetched for it. -/
theorem desiredRecord_restored_iff {fetchPayloads : Bool} {record : RegistryRecord} (valid : ScriptsValid store)
    (bare : record.script = "") :
    (restoredRecord (desiredRecord host.env fetchPayloads store record)).isSome = true ↔
      (record.source.isEmpty = false ∨ record.isAlias = true) ∧
        ¬ (fetchPayloads = true ∧ wantsPayload host.env (inheritedRecord store record) = true ∧
          RefusedBundle host record.source (inheritedRecord store record)) := by
  obtain ⟨source, flag⟩ := @desiredRecord_source host.env store fetchPayloads record
  have accepted := isRefusedScript_of_valid (inheritedRecord_script valid bare)
  have plugin : canMaterializePlugin (desiredRecord host.env fetchPayloads store record) =
      canMaterializePlugin (inheritedRecord store record) := by
    rw [desiredRecord_eq, ← canMaterializePlugin_clear, settlePayload_clear, canMaterializePlugin_clear]
  rw [restoredRecord_readable, source, flag, plugin]
  apply and_congr_right
  intro _
  apply not_congr
  cases materialized : canMaterializePlugin (inheritedRecord store record) with
  | false => simp [wantsPayload, materialized]
  | true =>
      rw [desiredRecord_eq, settlePayload_refused materialized accepted, inheritedRecord_source]
      simp

theorem syncRecords_readable {env : RegistryEnv} {fetchPayloads replaceMissing keepsMeta : Bool}
    {origins : List Path} {records : List RegistryRecord} (readable : Readable store) :
    Readable (syncRecords env fetchPayloads replaceMissing keepsMeta origins records store) ↔
      ∀ name record, lastNamed records name = some record →
        (restoredRecord (desiredRecord env fetchPayloads store record)).isSome = true := by
  rw [readable_iff] at readable ⊢
  apply Iff.intro
  · intro after name record last
    have lower : toLowerCopy name = name := by
      rw [← lastNamed_name last, toLowerCopy_idem]
    rcases @syncRecords_cases env fetchPayloads store replaceMissing keepsMeta origins records with
      ⟨_, unchanged⟩ | written
    · exact restoredRecord_again (unchanged name record last)
    · apply after name
      rw [written, lower, syncRecords_get, last]
      rfl
  · intro restored name stored found
    rcases syncRecords_stored found with before | ⟨record, last, rfl⟩
    · exact readable name stored before
    · exact restored _ record last

theorem SyncRequest.run_readable {request : SyncRequest} (readable : Readable store)
    (valid : ScriptsValid store) :
    Readable ((WriteCall.syncRecords request).run store) ↔ request.Sound store := by
  simp only [WriteCall.run]
  rw [syncRecords_readable readable]
  apply Iff.intro
  · intro restored
    have each (name : String) (record : RegistryRecord) (last : lastNamed request.records name = some record) :=
      (desiredRecord_restored_iff valid (request.bare record (lastNamed_mem last))).mp (restored name record last)
    apply SyncRequest.Sound.mk
    · intro name record last
      exact (each name record last).1
    · intro fetching name record last wanted refusal
      exact (each name record last).2 ⟨fetching, wanted, refusal⟩
  · intro sound name record last
    rw [desiredRecord_restored_iff valid (request.bare record (lastNamed_mem last))]
    refine ⟨sound.sourced name record last, ?_⟩
    intro stored
    obtain ⟨fetching, wanted, refusal⟩ := stored
    exact sound.scripts fetching name record last wanted refusal

/-- The record at the end of a chain of aliases is a stored one. -/
theorem followAliases_read {steps : Nat} {record last : RegistryRecord} {key : String}
    (read : readRecord store key = some record) (followed : followAliases store steps record = some last) :
    ∃ other, readRecord store other = some last := by
  induction steps generalizing key record with
  | zero =>
      cases followed
      exact ⟨key, read⟩
  | succ steps ih =>
      simp only [followAliases] at followed
      split at followed
      · obtain ⟨next, loaded, further⟩ := Option.bind_eq_some_iff.mp followed
        exact ih loaded further
      · cases followed
        exact ⟨key, read⟩

theorem resolveRecord_read {name : String} {record : RegistryRecord}
    (resolved : resolveRecord store name = some record) : ∃ key, readRecord store key = some record := by
  obtain ⟨first, loaded, followed⟩ := Option.bind_eq_some_iff.mp resolved
  exact followAliases_read loaded followed

/-- What a refresh makes of a record that was read can be read unless a bundle with a script
that is refused was fetched. -/
theorem refreshedRecordPayload_restored {preferLatestTag : Bool} {key : String}
    {record refreshed : RegistryRecord} (read : readRecord store key = some record)
    (done : refreshedRecordPayload host preferLatestTag record = some refreshed) :
    (restoredRecord refreshed).isSome = true ↔
      (canMaterializePlugin record = true →
        ¬ RefusedBundle host (sourceForPayload host preferLatestTag record.source) record) := by
  have before := restoredRecord_readable.1 (restoredRecord_again read)
  simp only [refreshedRecordPayload] at done
  by_cases flagged : record.isAlias = true
  · rw [if_pos flagged] at done
    cases done
    simp [restoredRecord_again read, canMaterializePlugin, flagged]
  · rw [if_neg flagged] at done
    cases plugin : canMaterializePlugin record with
    | false =>
        simp only [plugin, Bool.not_false, if_true, Option.some.injEq] at done
        subst done
        rw [restoredRecord_readable, canMaterializePlugin_clear, plugin]
        simpa [clearPayload] using before.1
    | true =>
        simp only [plugin, Bool.not_true, Bool.false_eq_true, if_false, Option.ite_none_left_eq_some] at done
        obtain ⟨_, done⟩ := done
        cases fetched : fetchPluginPayload host.world (sourceForPayload host preferLatestTag record.source)
            record.name with
        | none => simp [fetched] at done
        | some payload =>
            simp only [fetched, Option.ite_none_right_eq_some, Option.some.injEq] at done
            obtain ⟨hashes, rfl⟩ := done
            have still := canMaterializePlugin_clear (withPayload host
              (sourceForPayload host preferLatestTag record.source) payload record)
            rw [withPayload_clear, canMaterializePlugin_clear, plugin] at still
            have source := congrArg RegistryRecord.source (@withPayload_clear host
              (sourceForPayload host preferLatestTag record.source) payload record)
            have flag := congrArg RegistryRecord.isAlias (@withPayload_clear host
              (sourceForPayload host preferLatestTag record.source) payload record)
            simp only [clearPayload] at source flag
            rw [restoredRecord_readable, ← still, withPayload_script, source, flag, refusedBundle_iff, fetched]
            simp only [Option.some.injEq, exists_eq_left', hashes, and_true, true_and, true_imp_iff]
            exact and_iff_right before.1

theorem refreshRecord_readable {preferLatestTag : Bool} {name : String} (readable : Readable store) :
    Readable (refreshRecord host preferLatestTag name store).2 ↔
      (WriteCall.refreshRecord host preferLatestTag name).Sound store := by
  simp only [WriteCall.Sound, refreshRecord]
  cases resolved : resolveRecord store name with
  | none => simp [readable]
  | some record =>
      obtain ⟨key, read⟩ := resolveRecord_read resolved
      simp only [Option.bind_some, Option.some.injEq, forall_eq']
      cases done : refreshedRecordPayload host preferLatestTag record with
      | some refreshed =>
          simp only
          rw [readable_putRecord readable, refreshedRecordPayload_restored read done]
          apply imp_congr_right
          intro plugin
          have trusted : passesThinLayerTrust host.env record = true := by
            simp only [refreshedRecordPayload] at done
            split at done
            · rename_i flagged
              simp [passesThinLayerTrust, flagged]
            · simp only [plugin, Bool.not_true, Bool.false_eq_true, if_false, Option.ite_none_left_eq_some] at done
              simpa using done.1
          simp [trusted]
      | none =>
          simp only [readable, true_iff]
          intro plugin trusted refusal
          obtain ⟨payload, fetched, _, hashes⟩ := refusedBundle_iff.1 refusal
          have unflagged : record.isAlias = false := by
            simp only [canMaterializePlugin, Bool.and_eq_true, Bool.not_eq_true'] at plugin
            exact plugin.1
          simp [refreshedRecordPayload, unflagged, plugin, trusted, fetched, hashes] at done

theorem cacheScript_readable {name script : String} (readable : Readable store) :
    Readable (cacheScript host name script store).2 := by
  simp only [cacheScript]
  split
  · exact readable
  · rename_i valid
    cases loaded : loadRecord store name with
    | none => exact readable
    | some record =>
        simp only
        split
        · have before := restoredRecord_readable.1 (restoredRecord_again loaded)
          rw [readable_putRecord readable, restoredRecord_readable]
          refine ⟨before.1, ?_⟩
          have accepted := isRefusedScript_of_valid (Or.inr (show isValidPluginScript script = true by simpa using valid))
          simp [accepted]
        · exact readable

/-- A call on a readable store leaves it readable exactly when it stores nothing that is
refused. -/
theorem WriteCall.run_readable {call : WriteCall} (readable : Readable store) (valid : ScriptsValid store) :
    Readable (call.run store) ↔ call.Sound store := by
  cases call with
  | syncRecords request => exact SyncRequest.run_readable readable valid
  | refreshRecord host preferLatestTag name => exact refreshRecord_readable readable
  | cacheScript host name script => simp [WriteCall.run, WriteCall.Sound, cacheScript_readable readable]

theorem refreshRecord_scriptsValid {preferLatestTag : Bool} {name : String} (valid : ScriptsValid store) :
    ScriptsValid (refreshRecord host preferLatestTag name store).2 := by
  simp only [refreshRecord]
  cases done : (resolveRecord store name).bind (refreshedRecordPayload host preferLatestTag) with
  | none => exact valid
  | some refreshed =>
      obtain ⟨record, resolved, refreshing⟩ := Option.bind_eq_some_iff.mp done
      obtain ⟨key, read⟩ := resolveRecord_read resolved
      apply scriptsValid_putRecord valid
      intro other
      simp only [refreshedRecordPayload] at refreshing
      split at refreshing
      · cases refreshing
        exact valid key refreshed read
      · split at refreshing
        · cases refreshing
          exact Or.inl rfl
        · rename_i unflagged plugin
          simp only [Option.ite_none_left_eq_some] at refreshing
          obtain ⟨_, refreshing⟩ := refreshing
          split at refreshing
          · cases refreshing
          · rename_i payload fetched
            simp only [Option.ite_none_right_eq_some, Option.some.injEq] at refreshing
            obtain ⟨_, rfl⟩ := refreshing
            rw [← canMaterializePlugin_clear, withPayload_clear, canMaterializePlugin_clear] at other
            simp [other] at plugin

theorem cacheScript_scriptsValid {name script : String} (valid : ScriptsValid store) :
    ScriptsValid (cacheScript host name script store).2 := by
  simp only [cacheScript]
  split
  · exact valid
  · rename_i checked
    cases loaded : loadRecord store name with
    | none => exact valid
    | some record =>
        simp only
        split
        · apply scriptsValid_putRecord valid
          intro _
          exact Or.inr (by simpa using checked)
        · exact valid

/-- Whatever a call stores, the scripts that are read are scripts. -/
theorem WriteCall.run_scriptsValid {call : WriteCall} (valid : ScriptsValid store) :
    ScriptsValid (call.run store) := by
  cases call with
  | syncRecords request => exact syncRecords_scriptsValid valid request.bare
  | refreshRecord host preferLatestTag name => exact refreshRecord_scriptsValid valid
  | cacheScript host name script => exact cacheScript_scriptsValid valid

end Steps

/-! ## Runs -/

theorem writtenStore_append (before : List WriteCall) (call : WriteCall) :
    writtenStore (before ++ [call]) = call.run (writtenStore before) := by
  simp [writtenStore]

theorem writtenStore_scriptsValid (calls : List WriteCall) : ScriptsValid (writtenStore calls) := by
  induction calls using List.reverseRecOn with
  | nil =>
      intro key record read
      cases read
  | append_singleton calls call ih =>
      rw [writtenStore_append]
      exact WriteCall.run_scriptsValid ih

/-- Every state of a run is readable if and only if no call of it stores what is refused. -/
theorem writes_are_read_back (calls : List WriteCall) :
    (∀ before after, calls = before ++ after → Readable (writtenStore before)) ↔
      ∀ before call after, calls = before ++ call :: after → call.Sound (writtenStore before) := by
  apply Iff.intro
  · intro readable before call after split
    have start := readable before (call :: after) split
    have next := readable (before ++ [call]) after (by simp [split])
    rw [writtenStore_append] at next
    exact (WriteCall.run_readable start (writtenStore_scriptsValid before)).mp next
  · intro sound before
    induction before using List.reverseRecOn with
    | nil =>
        intro after _ name record found
        cases found
    | append_singleton before call ih =>
        intro after split
        have together : calls = before ++ call :: after := by simp [split]
        rw [writtenStore_append]
        exact (WriteCall.run_readable (ih (call :: after) together) (writtenStore_scriptsValid before)).mpr
          (sound before call after together)

/-! ## The calls of the database

`refreshRecord` and `cacheScript` make the database ready first.  That writes nothing but
what calls of `sync_records` write.
-/

section Database

variable {settings : RegistrySettings} {world : RegistryWorld} {host : RegistryHost}

/-- A store is led to another one by calls that write records. -/
def Writes (store after : RegistryStore) : Prop := ∃ calls : List WriteCall, after = calls.foldl WriteCall.run store

theorem Writes.refl (store : RegistryStore) : Writes store store := ⟨[], rfl⟩

theorem Writes.trans {first second third : RegistryStore} (before : Writes first second)
    (behind : Writes second third) : Writes first third := by
  obtain ⟨calls, rfl⟩ := before
  obtain ⟨others, rfl⟩ := behind
  exact ⟨calls ++ others, by rw [List.foldl_append]⟩

theorem syncMainRegistry_writes (same : world.env = host.env) (forceRefresh : Bool) (database : RegistryDatabase) :
    Writes database.store (syncMainRegistry settings world forceRefresh database).2.store := by
  rw [syncMainRegistry]
  split
  · exact Writes.refl _
  · split
    · exact Writes.refl _
    · rename_i sync planned
      have bare : ∀ record ∈ sync.records, record.script = "" := by
        intro record member
        obtain ⟨path, declares⟩ := planMainSync_declares planned record member
        rw [← declares.payload]
      exact ⟨[.syncRecords ⟨host, false, sync.replaceMissing, true, sync.origins, sync.records, bare⟩],
        by rw [same]; rfl⟩

theorem seedExplicitSources_writes (same : world.env = host.env) (database : RegistryDatabase) :
    Writes database.store (seedExplicitSources settings world database).store := by
  rw [seedExplicitSources]
  split
  · exact Writes.refl _
  · have bare : ∀ record ∈ (collectExplicitRegistrySources settings).entries.map
        (fun entry => recordOfSource entry.1 entry.2), record.script = "" := by
      intro record member
      obtain ⟨source, _, rfl⟩ := List.mem_map.mp member
      rfl
    exact ⟨[.syncRecords ⟨host, true, false, false, [], _, bare⟩], by rw [same]; rfl⟩

theorem bootstrap_writes (same : world.env = host.env) (database : RegistryDatabase) :
    Writes database.store (bootstrap settings world database).2.store := by
  simp only [bootstrap, bootstrapRegistry]
  split
  · exact seedExplicitSources_writes same database
  · exact (syncMainRegistry_writes same false database).trans (seedExplicitSources_writes same _)

/-- Making the database ready is a sequence of syncs. -/
theorem ensureReady_writes (same : world.env = host.env) (database : RegistryDatabase) :
    Writes database.store (ensureReady settings world database).2.store := by
  rw [ensureReady]
  split
  · exact Writes.refl _
  · exact bootstrap_writes same database

theorem refreshMainRegistry_writes (same : world.env = host.env) (forceRefresh : Bool)
    (database : RegistryDatabase) :
    Writes database.store (refreshMainRegistry settings world forceRefresh database).2.store := by
  rw [refreshMainRegistry]
  split
  · exact syncMainRegistry_writes same forceRefresh database
  · exact bootstrap_writes same database

end Database

/-! ## A run script that writes a page -/

/-- A bundle at `/src` with a run script. -/
def bundleWorld (script : String) : PayloadWorld where
  pathExists path := path == "/src"
  isDirectory path := path == "/src"
  readTextFile path := if path == "/src/run.lua" then script else ""
  readBundleDirectory path :=
    if path == "/src" then some { rootDir := "/src", runScriptPath := "/src/run.lua", metadataName := "site" }
    else none
  syncGitRepository _ _ := false
  gitRepositoryCachePath _ _ := ""
  latestGitTag _ := none
  download _ := none

def bundleHost (script : String) : RegistryHost where
  requireThinLayer := false
  sha256Hex _ := ""
  world := bundleWorld script

def siteRequest : SyncRequest where
  host := bundleHost "return plugin"
  fetchPayloads := true
  replaceMissing := false
  keepsMeta := false
  origins := []
  records := [{ name := "site", source := "/src" }]
  bare := by simp

/-- A known plugin is unknown behind a refresh that finds a page in its run script. -/
theorem refresh_hides_plugin :
    (loadRecord (writtenStore [.syncRecords siteRequest]) "site").isSome = true ∧
      ¬ ∀ calls, Readable (writtenStore calls) := by
  apply And.intro
  · decide +kernel
  · intro all
    have readable := readable_iff.1 (all [.syncRecords siteRequest,
      .refreshRecord (bundleHost "print('<html>')") false "site"]) "site"
    have stored : ((writtenStore [.syncRecords siteRequest,
        .refreshRecord (bundleHost "print('<html>')") false "site"]).get (toLowerCopy "site")).map
          restoredRecord = some none := by
      decide +kernel
    obtain ⟨record, found, refused⟩ := Option.map_eq_some_iff.mp stored
    have restored := readable record found
    rw [refused] at restored
    cases restored

end ReqPack.Registry
