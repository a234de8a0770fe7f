import ReqPack.Executor.Installs
import ReqPack.Executor.Orphans
import ReqPack.Executor.Refresh

/-! # Entries that keep an owner

A call that does not speak of a package leaves the owners of its entry alone, as
long as the plugin goes on listing it.  An entry with a root owner is never queued
as an orphan: clean-up takes away the owners that are packages, and no others.
-/

namespace ReqPack.Executor

open ReqPack.Data ReqPack.Core ReqPack.Scheduler

variable {σ : Type} {host : Host σ} {config : ExecutionConfig}

namespace InstalledStore

section Names

variable {store left right : InstalledStore} {system name version : String}

/-- What is stored under a name. -/
def ofName (store : InstalledStore) (system name : String) : InstalledStore :=
  store.filter fun entry => entry.system == system && entry.name == name

theorem ofName_of_ofSystem (same : left.ofSystem system = right.ofSystem system) (name : String) :
    left.ofName system name = right.ofName system name := by
  have narrowed : ∀ store : InstalledStore, store.ofName system name =
      (store.ofSystem system).filter fun entry => entry.name == name := by
    intro store
    rw [ofName, ofSystem, List.filter_filter]
    exact List.filter_congr fun entry _ => Bool.and_comm _ _
  rw [narrowed, narrowed, same]

/-- A look-up only sees what is stored under the name. -/
theorem findEntry_congr (same : left.ofName system name = right.ofName system name) (version : String) :
    findEntry left system name version = findEntry right system name version := by
  unfold ofName at same
  simp only [findEntry, same]

theorem ofName_put_of_ne {written : InstalledEntry} (apart : ¬(written.system = system ∧ written.name = name)) :
    ofName (put store written) system name = ofName store system name := by
  rw [ofName, put, filter_orderedInsert_of_not (by simpa using apart), List.filter_filter]
  apply List.filter_congr
  intro other _
  by_cases same : other.system = system ∧ other.name = name
  · have different : sameEntryKey other written = false := by
      rw [Bool.eq_false_iff, Ne, sameEntryKey_iff]
      exact fun key => apart ⟨key.1.symm.trans same.1, key.2.1.symm.trans same.2⟩
    simp [different]
  · have dropped : (other.system == system && other.name == name) = false := by simpa using same
    simp [dropped]

theorem ofName_removeEntries_of_ne {other title : String} (apart : ¬(other = system ∧ title = name)) :
    ofName (removeEntries store other title version) system name = ofName store system name := by
  rw [ofName, removeEntries, List.filter_filter]
  apply List.filter_congr
  intro entry _
  by_cases same : entry.system = system ∧ entry.name = name
  · have kept : ¬(entry.system = other ∧ entry.name = title) := by
      intro key
      exact apart ⟨key.1.symm.trans same.1, key.2.symm.trans same.2⟩
    have unmatched : (entry.system == other && entry.name == title) = false := by simpa using kept
    simp [unmatched]
  · have dropped : (entry.system == system && entry.name == name) = false := by simpa using same
    simp [dropped]

theorem ofName_updateInstalledState_of_ne {action : ActionType} {other title : String}
    (apart : ¬(other = system ∧ title = name)) :
    ofName (updateInstalledState store action other title version) system name = ofName store system name := by
  unfold updateInstalledState
  split
  · exact ofName_removeEntries_of_ne apart
  · split
    · rw [ofName_put_of_ne apart, ofName_removeEntries_of_ne apart]
    · split
      · exact ofName_put_of_ne apart
      · rfl

end Names

/-- The refreshed entries of a system keep the owner of an entry that is still listed. -/
theorem owned_of_listed {before after : InstalledStore} {package : Package} {entry : InstalledEntry}
    {owner syncedAt : String} {items : List (String × String)} (distinct : KeysDistinct before)
    (keys : KeysDistinct after) (named : ∀ item ∈ items, item.1 ≠ "")
    (stored : ∀ written, written ∈ after.ofSystem package.system ↔
      ∃ item ∈ items, written = refreshedItem before package.system syncedAt item)
    (found : findEntry before package.system package.name package.version = some entry)
    (member : owner ∈ entry.owners) (listed : (entry.name, entry.version) ∈ items) :
    Owned after package owner := by
  intro written writtenFound
  obtain ⟨loaded, filed, entitled, choice⟩ := (findEntry_eq_some distinct).mp found
  obtain ⟨writtenLoaded, writtenSystem, writtenName, writtenChoice⟩ := (findEntry_eq_some keys).mp writtenFound
  obtain ⟨raw, rawMember, rawRead⟩ := mem_loadInstalledState.1 writtenLoaded
  obtain ⟨rawSystem, rawName, rawVersion, _⟩ := readBack_key rawRead
  obtain ⟨item, inItems, rfl⟩ := (stored raw).mp
    (mem_ofSystem.2 ⟨rawMember, rawSystem.symm.trans writtenSystem⟩)
  have existing : entry ∈ existingEntries before package.system := mem_ofSystem_load.2 ⟨loaded, filed⟩
  have itemName : item.1 = package.name := rawName.symm.trans writtenName
  have carried : selectExisting (existingEntries before package.system) (listedEntry package.system item) =
      some entry := by
    rcases choice with ⟨given, exactly⟩ | alone
    · -- the version asked for is still listed, so it is the one that is found again
      have sameVersion : written.version = entry.version := by
        rcases writtenChoice with ⟨_, writtenExactly⟩ | writtenAlone
        · exact writtenExactly.trans exactly.symm
        · obtain ⟨again, read⟩ := @readBack_isSome
            (refreshedItem before package.system syncedAt (entry.name, entry.version))
            (findEntry_named distinct found).1 (named _ listed)
          have inAfter := (mem_ofSystem.1 ((stored _).mpr ⟨_, listed, rfl⟩)).1
          obtain ⟨againSystem, againName, againVersion, _⟩ := readBack_key read
          have versions := writtenAlone again (mem_loadInstalledState.2 ⟨_, inAfter, read⟩) againSystem
            (againName.trans entitled)
          exact versions.2.symm.trans againVersion
      refine selectExisting_of_sameKey distinct existing (entitled.trans itemName.symm) ?_
      exact sameVersion.symm.trans rawVersion
    · apply selectExisting_of_onlyName
      rw [show (listedEntry package.system item).name = package.name from itemName, filter_existingEntries]
      apply eq_singleton_of_apart (List.Pairwise.filter _ distinct.loaded)
      · simp [loaded, filed, entitled]
      · intro other otherMember
        simp only [List.mem_filter, Bool.and_eq_true, beq_iff_eq] at otherMember
        obtain ⟨otherLoaded, otherSystem, otherName⟩ := otherMember
        have otherVersion := (alone other otherLoaded otherSystem otherName).2
        exact distinct.eq_of_loaded otherLoaded loaded (sameEntryKey_iff.2
          ⟨otherSystem.trans filed.symm, otherName.trans entitled.symm, otherVersion⟩)
  exact owners_subset_refreshed carried existing rawRead member

end InstalledStore

section Recording

open InstalledStore

variable {records : List TransactionRecord} {world : World σ} {package : Package} {entry : InstalledEntry}
  {owner : String}

theorem foldl_updateInstalledRecord_ofName {system name : String} {fallback : List TransactionRecord}
    (apart : ∀ record ∈ fallback, ¬(record.system = system ∧ record.packageName = name)) (world : World σ) :
    (fallback.foldl (fun world record => updateInstalledRecord config record world) world).installed.ofName
      system name = world.installed.ofName system name := by
  induction fallback generalizing world with
  | nil => rfl
  | cons record fallback ih =>
      rw [List.foldl_cons, ih fun later member => apart later (List.mem_cons_of_mem _ member),
        updateInstalledRecord_installed]
      split
      · exact ofName_updateInstalledState_of_ne (apart record List.mem_cons_self)
      · rfl

/-- Records that do not speak of a package leave the owners of its entry alone, whether
the system is refreshed or not. -/
theorem recordHistory_owned (tracked : tracksInstalled config = true)
    (distinct : KeysDistinct world.installed)
    (found : findEntry world.installed package.system package.name package.version = some entry)
    (member : owner ∈ entry.owners)
    (silent : ∀ record ∈ records, ¬(record.system = package.system ∧ record.packageName = package.name))
    (listed : ∀ plugins, (entry.name, entry.version) ∈ (host.listPackages package.system plugins).1) :
    Owned (recordHistory host config records world).installed package owner := by
  have unchanged : (refreshInstalledState host config records world).2.installed.ofSystem package.system =
        world.installed.ofSystem package.system →
      Owned (recordHistory host config records world).installed package owner := by
    intro same
    obtain ⟨_, sameInstalled⟩ := refreshInstalledState_appendEvents host config records world
    have names : (recordHistory host config records world).installed.ofName package.system package.name =
        world.installed.ofName package.system package.name := by
      unfold recordHistory
      split
      · rw [foldl_updateInstalledRecord_ofName fun record kept =>
          silent record (List.mem_filter.mp kept).1, sameInstalled]
        exact ofName_of_ofSystem same _
      · rfl
    intro written writtenFound
    rw [findEntry_congr names, found] at writtenFound
    cases writtenFound
    exact member
  by_cases target : package.system ∈ refreshTargets records
  · obtain ⟨early, unlisted, refreshed⟩ := @refreshInstalledState_target σ host config tracked records _ target world
    cases listing : pluginListing host package.system (allowsEmpty records package.system)
        (turnOf host config records package.system world).plugins with
    | none => exact unchanged (unlisted listing).2
    | some items =>
        obtain ⟨synced, replaced⟩ := refreshed items listing
        obtain ⟨_, named⟩ := pluginListing_named listing
        have stored : ∀ written,
            written ∈ (recordHistory host config records world).installed.ofSystem package.system ↔
              ∃ item ∈ items, written = refreshedItem world.installed package.system (host.now
                (host.listPackages package.system (turnOf host config records package.system world).plugins).2)
                item := by
          intro written
          rw [recordHistory_of_refreshed tracked synced, replaced, mem_ofSystem_replaceInstalledState named]
          simp only [refreshedItem, existingEntries_congr early]
        refine owned_of_listed distinct (recordHistory_distinct distinct records) named stored found member ?_
        have inside := listed (turnOf host config records package.system world).plugins
        have entitled := (findEntry_eq_some distinct).mp found
        have titled : entry.name ≠ "" := by
          rw [entitled.2.2.1]
          exact (findEntry_named distinct found).2
        simp only [pluginListing] at listing
        split at listing
        · cases listing
        · split at listing
          · cases listing
          · split at listing
            · cases listing
            · cases listing
              exact List.mem_filter.mpr ⟨inside, by simpa using titled⟩
  · apply unchanged
    rw [refreshInstalledState_eq tracked]
    exact (@foldl_refreshTurn_of_not_mem σ host config tracked records _ _ target ([], world)).1

end Recording

section Calls

open InstalledStore

variable {inputAlreadyFiltered : Bool} {graph : Graph} {script : ExecuteScript} {world : World σ}
  {result : ExecuteResult σ} {package : Package} {entry : InstalledEntry} {owner : String}

/-- A call that removes nothing and has nothing to do with a package leaves the owners of
its entry alone. -/
theorem execute_keeps_owner (honest : Honest host) (ordered : SortedBy graph script.sorted)
    (tracked : tracksInstalled config = true) (distinct : KeysDistinct world.installed)
    (kept : ∀ package ∈ graph.packages, isRemoveAction package.action = false)
    (done : execute host config inputAlreadyFiltered graph script world = some result)
    (ok : result.ok = true)
    (found : findEntry world.installed package.system package.name package.version = some entry)
    (member : owner ∈ entry.owners)
    (unplanned : ∀ other ∈ graph.packages, ¬(other.system = package.system ∧ other.name = package.name))
    (listed : ∀ plugins, (entry.name, entry.version) ∈ (host.listPackages package.system plugins).1) :
    Owned result.world.installed package owner := by
  obtain ⟨executed, same, left⟩ := execute_installs kept done (Or.inl ok)
  have keys : KeysDistinct executed.installed := by
    rw [same]
    exact distinct
  rw [← same] at found
  have silent : ∀ record ∈ result.records,
      ¬(record.system = package.system ∧ record.packageName = package.name) := by
    intro record recorded named
    obtain ⟨planned, inPlan, agrees⟩ := exists_planned_of_record honest done recorded
    rcases execute_cases done with ⟨_, ⟨failed, _⟩, _⟩ | ⟨recovered, _, ran⟩
    · simp [ok] at failed
    · simp only [matchesRecord, Bool.and_eq_true, beq_iff_eq] at agrees
      exact unplanned planned (mem_graph_of_planned honest ordered ran inPlan)
        ⟨agrees.1.1.2.trans named.1, agrees.1.2.trans named.2⟩
  have recorded := recordHistory_owned tracked keys found member silent listed
  have recordedKeys := @recordHistory_distinct σ host config executed keys result.records
  rw [left, reconcileInstalledOwnership_eq tracked]
  exact recorded.grow recordedKeys (foldl_mergeOwnership_grows _ _ _ recordedKeys)

end Calls

section Orphans

open InstalledStore

variable {world : World σ} {package : Package}

theorem rootOwner_ne_packageOwner (left right : Package) :
    installedRootOwnerId left ≠ installedPackageOwnerId right := by
  intro same
  have letters := congrArg (fun text => text.toList.head?) same
  simp [installedRootOwnerId, installedPackageOwnerId, installedOwnerToken] at letters

theorem subtractInstalledOwnership_keeps {store : InstalledStore} (distinct : KeysDistinct store)
    (requirement : Package) {ownerIds : List String} {owner : String} (other : owner ∉ ownerIds) :
    Rewritten (fun before after => owner ∈ before → owner ∈ after) store
      (subtractInstalledOwnership store requirement ownerIds) := by
  unfold subtractInstalledOwnership
  split
  · exact .refl (fun _ => id) store
  · split
    · exact .refl (fun _ => id) store
    · rename_i entry found
      apply rewritten_put distinct found (fun _ => id)
      intro member
      have named := owner_ne_empty_of_loaded ((findEntry_eq_some distinct).mp found).1 member
      exact mem_normalizeOwners.2 ⟨mem_normalizeOwners.2
        ⟨List.mem_filter.mpr ⟨member, by simpa using other⟩, named⟩, named⟩

/-- Removing packages does not take a root owner away. -/
theorem subtractDependencyOwnership_keeps_root (distinct : KeysDistinct world.installed)
    (owned : Owned world.installed package (installedRootOwnerId package)) (records : List TransactionRecord) :
    Owned (subtractDependencyOwnership host config records world).installed package
      (installedRootOwnerId package) := by
  unfold subtractDependencyOwnership
  split
  · have kept := @foldl_subtractTurn_rewritten σ host
      (fun before after => installedRootOwnerId package ∈ before → installedRootOwnerId package ∈ after)
      (fun _ => id) (fun _ _ _ first second => second ∘ first)
      (fun other store requirement keys => subtractInstalledOwnership_keeps keys requirement
        (by simpa using rootOwner_ne_packageOwner package other))
      (records.filter isSuccessfulRemoval) world distinct
    intro written found
    obtain ⟨entry, foundBefore, _, keeps⟩ := kept.findEntry distinct found
    exact keeps (owned entry foundBefore)
  · exact owned

/-- An entry with an owner is not queued as an orphan. -/
theorem not_orphaned_of_owned {store : InstalledStore} {owner : String} {plugins : σ}
    (distinct : KeysDistinct store) (owned : Owned store package owner) {entry : InstalledEntry}
    (found : findEntry store package.system package.name package.version = some entry)
    {records : List TransactionRecord} {queued : Package}
    (member : queued ∈ orphanedPackages host plugins store.loadInstalledState records) :
    ¬(queued.system = entry.system ∧ queued.name = entry.name ∧ queued.version = entry.version) := by
  rintro ⟨sameSystem, sameName, sameVersion⟩
  obtain ⟨_, _, _, dependency, _, orphan, orphanFound, unowned, rfl⟩ := mem_orphanedPackages member
  obtain ⟨orphanLoaded, orphanSystem, orphanName, _⟩ := (findEntry_eq_some distinct).mp
    (findEntry_of_findInstalledDependency distinct orphanFound)
  have same : orphan = entry := distinct.eq_of_loaded orphanLoaded
    ((findEntry_eq_some distinct).mp found).1 (sameEntryKey_iff.2
      ⟨orphanSystem.trans sameSystem, orphanName.trans sameName, sameVersion⟩)
  have holder := owned entry found
  rw [← same, unowned] at holder
  simp at holder

end Orphans

end ReqPack.Executor
