import ReqPack.Registry.Database
import ReqPack.Registry.Inheritance

/-! # Configured sources

The sources of the configuration are written behind the first sync of the main registry
only.  They last as long as no later sync of the main registry declares or deletes their
names.
-/

namespace ReqPack.Registry

open ReqPack.Data ReqPack.Core
open ReqPack.Planner (trimCopy toLowerCopy)

/-- The record that is read under a name has the source and the alias flag of an entry. -/
def ReadsAs (store : RegistryStore) (name : String) (entry : RegistrySourceEntry) : Prop :=
  ∃ record, readRecord store name = some record ∧ record.source = entry.source ∧ record.isAlias = entry.isAlias

/-- Every configured source is read as it is configured. -/
def Configured (settings : RegistrySettings) (store : RegistryStore) : Prop :=
  ∀ name entry, (collectExplicitRegistrySources settings).get name = some entry → ReadsAs store name entry

/-- The records of the configured sources can be read back once they are written. -/
structure SourcesReadable (settings : RegistrySettings) (world : RegistryWorld) : Prop where
  sourced : ∀ name entry, (collectExplicitRegistrySources settings).get name = some entry →
    entry.source.isEmpty = false ∨ entry.isAlias = true
  fetched : ∀ name entry payload, (collectExplicitRegistrySources settings).get name = some entry →
    world.env.fetchPluginPayload entry.source name = some payload →
    payload.1.isEmpty = true ∨ isValidPluginScript payload.1 = true

/-- A sync of the main registry declares a configured name as it is configured, or leaves it
alone. -/
def MainSync.Keeps (settings : RegistrySettings) (sync : MainSync) (store : RegistryStore) : Prop :=
  ∀ name entry, (collectExplicitRegistrySources settings).get name = some entry →
    match lastNamed sync.records name with
    | some record => record.source = entry.source ∧ record.isAlias = entry.isAlias
    | none => sync.replaceMissing = false ∧
        ∀ record, readRecord store name = some record → record.originPath ∉ sync.origins

/-- The condition on one call. -/
def RegistryCall.Keeps (settings : RegistrySettings) (database : RegistryDatabase) : RegistryCall → Prop
  | .ensureReady world => database.bootstrapped = false → SourcesReadable settings world
  | .refreshMainRegistry world forceRefresh =>
      (database.bootstrapped = false → SourcesReadable settings world) ∧
        (database.bootstrapped = true → settings.jsonRemote = true →
          ∀ sync, planMainSync settings world forceRefresh database = some sync →
            sync.Keeps settings database.store)

/-- The condition on every call of a sequence. -/
def KeepsAlong (settings : RegistrySettings) : RegistryDatabase → List RegistryCall → Prop
  | _, [] => True
  | database, call :: calls =>
      call.Keeps settings database ∧ KeepsAlong settings (call.run settings database).2 calls

section Explicit

variable {settings : RegistrySettings}

theorem pluginSources_lower {sources : List (String × String)} {store : KeyValue String RegistrySourceEntry}
    (lower : ∀ name entry, store.get name = some entry → toLowerCopy name = name) :
    ∀ name entry, (sources.foldl (fun sources entry =>
        sources.put (toLowerCopy entry.1) ({ source := entry.2 } : RegistrySourceEntry)) store).get name =
      some entry → toLowerCopy name = name := by
  induction sources generalizing store with
  | nil => exact lower
  | cons source sources ih =>
      apply ih
      intro name entry found
      rw [KeyValue.get_put] at found
      split at found
      · rename_i same
        rw [same, toLowerCopy_idem]
      · exact lower name entry found

/-- The names of the configured sources are in lower case. -/
theorem explicit_lower {name : String} {entry : RegistrySourceEntry}
    (configured : (collectExplicitRegistrySources settings).get name = some entry) :
    toLowerCopy name = name := by
  rw [collectExplicitRegistrySources, KeyValue.get_foldl_put settings.sources.sorted] at configured
  cases listed : settings.sources.get name with
  | some given => exact settings.lower _ (KeyValue.get_eq_some.1 listed)
  | none =>
      simp only [KeyValue.get] at listed
      rw [listed, Option.none_or] at configured
      exact pluginSources_lower (fun _ _ found => by cases found) name entry configured

/-- The record that is written for a configured source. -/
theorem lastNamed_explicit {name : String} {entry : RegistrySourceEntry}
    (configured : (collectExplicitRegistrySources settings).get name = some entry) :
    lastNamed ((collectExplicitRegistrySources settings).entries.map fun source =>
      recordOfSource source.1 source.2) name = some (recordOfSource name entry) := by
  have member := KeyValue.get_eq_some.1 configured
  cases last : lastNamed ((collectExplicitRegistrySources settings).entries.map fun source =>
      recordOfSource source.1 source.2) name with
  | none =>
      have apart := List.find?_eq_none.mp last (recordOfSource name entry)
        (List.mem_reverse.mpr (List.mem_map.mpr ⟨_, member, rfl⟩))
      simp [recordOfSource, explicit_lower configured] at apart
  | some record =>
      obtain ⟨⟨key, given⟩, listed, rfl⟩ := List.mem_map.mp (lastNamed_mem last)
      have keyed := KeyValue.get_eq_some.2 listed
      have same : key = name := by
        have named := lastNamed_name last
        simp only [recordOfSource, toLowerCopy_idem] at named
        rw [← named, explicit_lower keyed]
      subst same
      rw [keyed] at configured
      cases configured
      rfl

end Explicit

section Written

variable {env : RegistryEnv} {store : RegistryStore} {fetchPayloads : Bool}

/-- Source and alias flag of a record are written as they are. -/
theorem desiredRecord_source (record : RegistryRecord) :
    (desiredRecord env fetchPayloads store record).source = record.source ∧
      (desiredRecord env fetchPayloads store record).isAlias = record.isAlias := by
  have cleared : clearPayload (desiredRecord env fetchPayloads store record) =
      clearPayload (inheritedRecord store record) := by
    rw [desiredRecord_eq, settlePayload_clear]
  have inherited : (inheritedRecord store record).source = record.source ∧
      (inheritedRecord store record).isAlias = record.isAlias := by
    simp only [inheritedRecord]
    split
    · exact ⟨rfl, rfl⟩
    · rename_i existing found
      have same := inheritPayload_clear existing
        (inheritFields existing { record with name := toLowerCopy record.name })
      have sources := congrArg RegistryRecord.source same
      have flags := congrArg RegistryRecord.isAlias same
      exact ⟨sources, flags⟩
  have sources := congrArg RegistryRecord.source cleared
  have flags := congrArg RegistryRecord.isAlias cleared
  exact ⟨sources.trans inherited.1, flags.trans inherited.2⟩

/-- A record that is stored and readable reads as an entry with its source. -/
theorem readsAs_of_stored {name : String} {record : RegistryRecord} {entry : RegistrySourceEntry}
    (stored : store.get name = some record) (readable : (restoredRecord record).isSome = true)
    (source : record.source = entry.source) (flag : record.isAlias = entry.isAlias) :
    ReadsAs store name entry := by
  obtain ⟨restored, read⟩ := Option.isSome_iff_exists.mp readable
  refine ⟨restored, ?_, ?_, ?_⟩
  · rw [readRecord, stored]
    exact read
  · rw [restoredRecord_eq_some read]
    exact source
  · rw [restoredRecord_eq_some read]
    exact flag

/-- A record that is written with what can be fetched is read back when that is a script. -/
theorem desiredRecord_fetched {record : RegistryRecord} (valid : ScriptsValid store) (bare : record.script = "")
    (sourced : record.source.isEmpty = false ∨ record.isAlias = true)
    (fetched : ∀ payload, env.fetchPluginPayload record.source (toLowerCopy record.name) = some payload →
      payload.1.isEmpty = true ∨ isValidPluginScript payload.1 = true) :
    (restoredRecord (desiredRecord env fetchPayloads store record)).isSome = true := by
  obtain ⟨source, flag⟩ := @desiredRecord_source env store fetchPayloads record
  have name := congrArg RegistryRecord.name (@settlePayload_clear env fetchPayloads (inheritedRecord store record))
  simp only [clearPayload, ← desiredRecord_eq, desiredRecord_name] at name
  have script : (desiredRecord env fetchPayloads store record).script.isEmpty = true ∨
      isValidPluginScript (desiredRecord env fetchPayloads store record).script = true := by
    rw [desiredRecord_eq]
    rcases @settlePayload_script env fetchPayloads (inheritedRecord store record) with
      none | same | ⟨_, payload, given, same⟩
    · simp [none]
    · rw [same]
      exact inheritedRecord_script valid bare
    · rw [same]
      rw [inheritedRecord_source, ← name] at given
      exact fetched payload given
  rw [restoredRecord, source, flag]
  have kept : (record.source.isEmpty && !record.isAlias) = false := by
    rcases sourced with full | flagged
    · simp [full]
    · simp [flagged]
  rw [kept]
  rcases script with empty | valid
  · simp [empty]
  · simp [valid]

end Written

section Calls

variable {settings : RegistrySettings} {world : RegistryWorld} {database : RegistryDatabase}

/-- Writing the configured sources makes them readable as they are configured. -/
theorem writeRecords_configured {store : RegistryStore} (valid : ScriptsValid store)
    (readable : SourcesReadable settings world) :
    Configured settings
      (writeRecords world.env (collectExplicitRegistrySources settings).entries store) := by
  intro name entry configured
  have last := lastNamed_explicit configured
  obtain ⟨source, flag⟩ := @desiredRecord_source world.env store true (recordOfSource name entry)
  rw [writeRecords]
  rcases @syncRecords_cases world.env true store false false []
      ((collectExplicitRegistrySources settings).entries.map fun source => recordOfSource source.1 source.2) with
    ⟨same, stored⟩ | written
  · rw [same]
    exact ⟨_, stored name _ last, source, flag⟩
  · rw [written]
    have stored : (syncRecords world.env true false true []
        ((collectExplicitRegistrySources settings).entries.map fun source => recordOfSource source.1 source.2)
        store).get name = some (desiredRecord world.env true store (recordOfSource name entry)) := by
      rw [syncRecords_get, last]
      rfl
    apply readsAs_of_stored stored _ source flag
    apply desiredRecord_fetched valid rfl (readable.sourced name entry configured)
    intro payload fetched
    have named : toLowerCopy (recordOfSource name entry).name = name := by
      rw [recordOfSource, toLowerCopy_idem, explicit_lower configured]
    rw [named] at fetched
    exact readable.fetched name entry payload configured fetched

theorem seedExplicitSources_configured (valid : ScriptsValid database.store)
    (readable : SourcesReadable settings world) :
    Configured settings (seedExplicitSources settings world database).store := by
  rw [seedExplicitSources]
  split
  · rename_i nothing
    intro name entry configured
    have member := KeyValue.get_eq_some.1 configured
    rw [List.isEmpty_iff.mp nothing] at member
    cases member
  · exact writeRecords_configured valid readable

theorem seedExplicitSources_scriptsValid (valid : ScriptsValid database.store) :
    ScriptsValid (seedExplicitSources settings world database).store := by
  rw [seedExplicitSources]
  split
  · exact valid
  · apply syncRecords_scriptsValid valid
    intro record member
    obtain ⟨source, _, rfl⟩ := List.mem_map.mp member
    rfl

/-- What is synced of a commit was declared by its files. -/
theorem planMainSync_declares {forceRefresh : Bool} {sync : MainSync}
    (planned : planMainSync settings world forceRefresh database = some sync) :
    ∀ record ∈ sync.records, ∃ path, Declares path record := by
  have full {commit : String} {found : MainSync} (given : fullMainSync settings world commit = some found) :
      ∀ record ∈ found.records, ∃ path, Declares path record := by
    obtain ⟨records, parsed, rfl⟩ := Option.map_eq_some_iff.mp given
    exact parseFiles_declares parsed
  have diff {commit : String} {entries : List RegistryDiffEntry} {found : MainSync}
      (given : diffMainSync settings world commit entries = some found) :
      ∀ record ∈ found.records, ∃ path, Declares path record := by
    obtain ⟨records, parsed, rfl⟩ := Option.map_eq_some_iff.mp given
    exact parseFiles_declares parsed
  simp only [planMainSync] at planned
  split at planned
  · cases planned
  · split at planned
    · cases planned
    · split at planned
      · cases planned
      · split at planned
        · cases planned
        · split at planned
          · exact full planned
          · split at planned
            · exact full planned
            · split at planned
              · cases planned
                simp
              · split at planned
                · exact full planned
                · exact diff planned

theorem applyMainSync_scriptsValid {env : RegistryEnv} {sync : MainSync} (valid : ScriptsValid database.store)
    (declared : ∀ record ∈ sync.records, ∃ path, Declares path record) :
    ScriptsValid (applyMainSync env sync database).store := by
  apply syncRecords_scriptsValid valid
  intro record member
  obtain ⟨path, declares⟩ := declared record member
  rw [← declares.payload]

/-- A sync of the main registry that keeps the configured names leaves them configured. -/
theorem applyMainSync_configured {env : RegistryEnv} {sync : MainSync} (valid : ScriptsValid database.store)
    (declared : ∀ record ∈ sync.records, ∃ path, Declares path record)
    (keeps : sync.Keeps settings database.store) (configured : Configured settings database.store) :
    Configured settings (applyMainSync env sync database).store := by
  intro name entry explicitly
  have kept := keeps name entry explicitly
  rw [applyMainSync]
  cases last : lastNamed sync.records name with
  | some record =>
      simp only [last] at kept
      obtain ⟨path, declares⟩ := declared record (lastNamed_mem last)
      have stored : (syncRecords env false sync.replaceMissing true sync.origins sync.records
          database.store).get name = some (desiredRecord env false database.store record) := by
        rw [syncRecords_get, last]
        rfl
      obtain ⟨source, flag⟩ := @desiredRecord_source env database.store false record
      have bare : record.script = "" := by rw [← declares.payload]
      apply readsAs_of_stored stored (desiredRecord_restored valid bare declares.source)
      · rw [source]
        exact kept.1
      · rw [flag]
        exact kept.2
  | none =>
      simp only [last] at kept
      obtain ⟨record, read, same⟩ := configured name entry explicitly
      refine ⟨record, ?_, same⟩
      have undeleted : ¬ ∃ found, readRecord database.store name = some found ∧
          (sync.replaceMissing = true ∨ found.originPath ∈ sync.origins) := by
        rintro ⟨found, given, replaced | deleted⟩
        · rw [kept.1] at replaced
          cases replaced
        · exact kept.2 found given deleted
      rw [readRecord, syncRecords_get, last, Option.map_none, Option.none_or, if_neg undeleted]
      exact read

theorem syncMainRegistry_scriptsValid {forceRefresh : Bool} (valid : ScriptsValid database.store) :
    ScriptsValid (syncMainRegistry settings world forceRefresh database).2.store := by
  rw [syncMainRegistry]
  split
  · exact valid
  · split
    · exact valid
    · rename_i sync planned
      exact applyMainSync_scriptsValid valid (planMainSync_declares planned)

theorem bootstrap_configured (valid : ScriptsValid database.store) (readable : SourcesReadable settings world) :
    ScriptsValid (bootstrap settings world database).2.store ∧
      Configured settings (bootstrap settings world database).2.store := by
  simp only [bootstrap, bootstrapRegistry]
  split
  · exact ⟨seedExplicitSources_scriptsValid valid, seedExplicitSources_configured valid readable⟩
  · have synced := @syncMainRegistry_scriptsValid settings world database false valid
    exact ⟨seedExplicitSources_scriptsValid synced, seedExplicitSources_configured synced readable⟩

/-- The scripts stay valid, and once the first call succeeded the sources are configured. -/
structure SourcesKept (settings : RegistrySettings) (database : RegistryDatabase) : Prop where
  valid : ScriptsValid database.store
  configured : database.bootstrapped = true → Configured settings database.store

/-- What one call preserves; the sources are configured behind it. -/
theorem RegistryCall.run_kept {call : RegistryCall} (kept : SourcesKept settings database)
    (keeps : call.Keeps settings database) :
    SourcesKept settings (call.run settings database).2 ∧
      Configured settings (call.run settings database).2.store := by
  cases call with
  | ensureReady world =>
      simp only [RegistryCall.run, Registry.ensureReady]
      cases ready : database.bootstrapped with
      | true => exact ⟨kept, kept.configured ready⟩
      | false =>
          obtain ⟨valid, configured⟩ := @bootstrap_configured settings world database kept.valid (keeps ready)
          exact ⟨⟨valid, fun _ => configured⟩, configured⟩
  | refreshMainRegistry world forceRefresh =>
      simp only [RegistryCall.run, Registry.refreshMainRegistry]
      cases ready : database.bootstrapped with
      | false =>
          obtain ⟨valid, configured⟩ := @bootstrap_configured settings world database kept.valid (keeps.1 ready)
          exact ⟨⟨valid, fun _ => configured⟩, configured⟩
      | true =>
          have before := kept.configured ready
          have valid := @syncMainRegistry_scriptsValid settings world database forceRefresh kept.valid
          have configured : Configured settings
              (syncMainRegistry settings world forceRefresh database).2.store := by
            rw [syncMainRegistry]
            split
            · exact before
            · rename_i remote
              split
              · exact before
              · rename_i sync planned
                apply applyMainSync_configured kept.valid (planMainSync_declares planned) _ before
                exact keeps.2 ready (by simpa using remote) sync planned
          exact ⟨⟨valid, fun _ => configured⟩, configured⟩

theorem runCalls_configured {calls : List RegistryCall} (kept : SourcesKept settings database)
    (keeps : KeepsAlong settings database calls) :
    ∀ result ∈ runCalls settings database calls, Configured settings result.2.store := by
  induction calls generalizing database with
  | nil => simp [runCalls]
  | cons call calls ih =>
      obtain ⟨next, configured⟩ := RegistryCall.run_kept kept keeps.1
      intro result member
      rcases List.mem_cons.mp member with rfl | later
      · exact configured
      · exact ih next keeps.2 result later

end Calls

/-- In every sequence of calls that keeps the configured names, each of them is read as it
is configured behind every call that succeeds. -/
theorem explicit_sources_win (settings : RegistrySettings) (earlier : List SyncCall) (lastCommit : Option String)
    (calls : List RegistryCall) (keeps : KeepsAlong settings ⟨syncedStore earlier, lastCommit, false⟩ calls) :
    ∀ result ∈ runCalls settings ⟨syncedStore earlier, lastCommit, false⟩ calls, result.1 = true →
      Configured settings result.2.store := by
  intro result member _
  exact runCalls_configured ⟨syncedStore_scriptsValid earlier, fun ready => by cases ready⟩ keeps result member

/-! ## A source of one's own for `apt` -/

def ownSource : RegistrySourceEntry := { source := "https://example.org/own.lua" }

def ownSettings : RegistrySettings where
  jsonRemote := true
  location := registryLocation
  refreshMode := .manual
  pluginSources := []
  sources := KeyValue.put {} "apt" ownSource
  lower := by decide +kernel

/-- The main registry declares `apt` with this source. -/
def aptFile (source : String) : TreeFile where
  path := ["registry", "apt.json"]
  content := some { schemaVersion := 1, name := some "apt", source := some source }

def aptTree (source : String) : RegistryTree where
  files := [aptFile source]
  named := by simp [aptFile, Path.Plain]
  distinct := by simp [aptFile]

def aptWorld (online : Bool) (source : String) : RegistryWorld where
  env := bareEnv
  repositorySynced := online
  pluginsRootExists := true
  headCommit := some "c1"
  commitExists _ := false
  nameStatus _ _ := none
  tree := aptTree source
  intervalElapsed := true

/-- The first call finds the registry offline, the second one online. -/
def aptCalls (source : String) : List RegistryCall :=
  [.ensureReady (aptWorld false source), .refreshMainRegistry (aptWorld true source) true]

theorem ownSettings_explicit {name : String} {entry : RegistrySourceEntry}
    (configured : (collectExplicitRegistrySources ownSettings).get name = some entry) :
    name = "apt" ∧ entry = ownSource := by
  have only : collectExplicitRegistrySources ownSettings = KeyValue.put {} "apt" ownSource := rfl
  rw [only, KeyValue.get_put] at configured
  split at configured
  · rename_i same
    exact ⟨same, (Option.some.inj configured).symm⟩
  · cases configured

theorem aptCalls_keeps :
    KeepsAlong ownSettings ⟨syncedStore [], none, false⟩ (aptCalls "https://example.org/own.lua") := by
  have readable (online : Bool) (source : String) : SourcesReadable ownSettings (aptWorld online source) := by
    apply SourcesReadable.mk
    · intro name entry configured
      rw [(ownSettings_explicit configured).2]
      exact Or.inl (by decide)
    · intro name entry payload _ fetched
      cases fetched
  refine ⟨fun _ => readable _ _, ⟨fun _ => readable _ _, ?_⟩, True.intro⟩
  intro _ _ sync planned name entry configured
  obtain ⟨rfl, rfl⟩ := ownSettings_explicit configured
  have declared : (planMainSync ownSettings (aptWorld true "https://example.org/own.lua") true
      ((RegistryCall.ensureReady (aptWorld false "https://example.org/own.lua")).run ownSettings
        ⟨syncedStore [], none, false⟩).2).all (fun found =>
        (lastNamed found.records "apt").any fun record =>
          record.source == ownSource.source && record.isAlias == ownSource.isAlias) = true := by
    decide +kernel
  rw [planned, Option.all_some] at declared
  cases last : lastNamed sync.records "apt" with
  | none =>
      rw [last] at declared
      cases declared
  | some record =>
      rw [last] at declared
      simpa using declared

theorem explicit_sources_win_apt :
    KeepsAlong ownSettings ⟨syncedStore [], none, false⟩ (aptCalls "https://example.org/own.lua") ∧
      ∀ result ∈ runCalls ownSettings ⟨syncedStore [], none, false⟩ (aptCalls "https://example.org/own.lua"),
        result.1 = true → Configured ownSettings result.2.store :=
  ⟨aptCalls_keeps, explicit_sources_win _ _ _ _ aptCalls_keeps⟩

/-- A refresh behind the first call writes the source of the main registry. -/
theorem refresh_replaces_source :
    ¬ ∀ (settings : RegistrySettings) (earlier : List SyncCall) (lastCommit : Option String)
      (calls : List RegistryCall), ∀ result ∈ runCalls settings ⟨syncedStore earlier, lastCommit, false⟩ calls,
      result.1 = true → Configured settings result.2.store := by
  intro all
  have replaced : (runCalls ownSettings ⟨syncedStore [], none, false⟩
      (aptCalls "https://example.org/apt.lua")).any (fun result => result.1 &&
        (readRecord result.2.store "apt").all fun record => record.source != ownSource.source) = true := by
    decide +kernel
  obtain ⟨result, member, holds⟩ := List.any_eq_true.mp replaced
  simp only [Bool.and_eq_true] at holds
  obtain ⟨record, read, source, _⟩ := all ownSettings [] none _ result member holds.1 "apt" ownSource
    (by decide +kernel)
  have other := holds.2
  rw [read, Option.all_some, source] at other
  simp at other

end ReqPack.Registry
