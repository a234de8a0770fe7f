import ReqPack.Executor.Frames
import ReqPack.Executor.InstalledFacts

/-! # The two ways records reach the installed state

`recordHistory` reads the entries of a system from its plugin where it can, and
carries owners and times over; where the plugin lists nothing it falls back to
writing a fresh entry for each record.
-/

namespace ReqPack.Executor

open ReqPack.Data ReqPack.Core ReqPack.Scheduler

variable {σ : Type} {host : Host σ} {config : ExecutionConfig}

section Listing

/-- An entry for a package the plugin lists. -/
def listedEntry (system : String) (item : String × String) : InstalledEntry :=
  { name := item.1, version := item.2, system := system }

/-- What the refresh of a system reads, if the system is refreshed at all. -/
def pluginListing (host : Host σ) (system : String) (allowEmpty : Bool) (plugins : σ) :
    Option (List (String × String)) :=
  if system.isEmpty || host.isGatewaySystem system then none
  else if !(host.hasPlugin plugins system && host.loadPlugin plugins system) then none
  else
    let items := (host.listPackages system plugins).1.filter fun item => !item.1.isEmpty
    if items.isEmpty && !allowEmpty then none else some items

theorem sync_of_unlisted (tracked : tracksInstalled config = true) {system : String} {allowEmpty : Bool}
    {world : World σ} (unlisted : pluginListing host system allowEmpty world.plugins = none) :
    (syncInstalledStateForSystem host config system allowEmpty world).1 = false ∧
      (syncInstalledStateForSystem host config system allowEmpty world).2.installed = world.installed := by
  simp only [pluginListing] at unlisted
  simp only [syncInstalledStateForSystem, tracked, Bool.not_true, Bool.false_or, List.isEmpty_map]
  split
  · exact ⟨rfl, rfl⟩
  · rename_i reachable
    rw [if_neg reachable] at unlisted
    split
    · exact ⟨rfl, rfl⟩
    · rename_i loaded
      rw [if_neg loaded] at unlisted
      split
      · exact ⟨rfl, rfl⟩
      · rename_i present
        rw [if_neg present] at unlisted
        cases unlisted

theorem sync_of_listed (tracked : tracksInstalled config = true) {system : String} {allowEmpty : Bool}
    {world : World σ} {items : List (String × String)}
    (listed : pluginListing host system allowEmpty world.plugins = some items) :
    (syncInstalledStateForSystem host config system allowEmpty world).1 = true ∧
      (syncInstalledStateForSystem host config system allowEmpty world).2.installed =
        world.installed.replaceInstalledState system
          (host.now (host.listPackages system world.plugins).2) (items.map (listedEntry system)) := by
  simp only [pluginListing] at listed
  simp only [syncInstalledStateForSystem, tracked, Bool.not_true, Bool.false_or, List.isEmpty_map]
  split at listed
  · cases listed
  · rename_i reachable
    rw [if_neg reachable]
    split at listed
    · cases listed
    · rename_i loaded
      rw [if_neg loaded]
      split at listed
      · cases listed
      · rename_i present
        rw [if_neg present]
        cases listed
        exact ⟨rfl, rfl⟩

end Listing

section Targets

/-- Only systems all of whose records are removals may end up empty. -/
def allowsEmpty (records : List TransactionRecord) (system : String) : Bool :=
  (records.filter fun record => refreshes record && record.system == system).all fun record =>
    record.action == .remove

/-- One turn of `refreshInstalledState`. -/
def refreshTurn (host : Host σ) (config : ExecutionConfig) (records : List TransactionRecord)
    (found : List String × World σ) (system : String) : List String × World σ :=
  let synced := syncInstalledStateForSystem host config system (allowsEmpty records system) found.2
  (if synced.1 then found.1 ++ [system] else found.1, synced.2)

theorem refreshInstalledState_eq (tracked : tracksInstalled config = true)
    (records : List TransactionRecord) (world : World σ) :
    refreshInstalledState host config records world =
      (refreshTargets records).foldl (refreshTurn host config records) ([], world) := by
  rw [refreshInstalledState, if_pos tracked]
  rfl

theorem mem_refreshTargets {records : List TransactionRecord} {system : String} :
    system ∈ refreshTargets records ↔
      ∃ record ∈ records, refreshes record = true ∧ record.system = system := by
  rw [refreshTargets, (stableSort_perm _ _).mem_iff]
  simp [and_assoc]

theorem refreshTargets_nodup (records : List TransactionRecord) : (refreshTargets records).Nodup :=
  (stableSort_perm _ _).nodup_iff.mpr (List.nodup_dedup _)

/-- The turn of a system leaves the entries of every other system alone. -/
theorem refreshTurn_of_ne (tracked : tracksInstalled config = true) {records : List TransactionRecord}
    {turn system : String} (apart : turn ≠ system) (found : List String × World σ) :
    (refreshTurn host config records found turn).2.installed.ofSystem system =
        found.2.installed.ofSystem system ∧
      (system ∈ (refreshTurn host config records found turn).1 ↔ system ∈ found.1) := by
  cases listed : pluginListing host turn (allowsEmpty records turn) found.2.plugins with
  | none =>
      obtain ⟨missed, same⟩ := sync_of_unlisted tracked listed
      simp [refreshTurn, missed, same]
  | some items =>
      obtain ⟨synced, replaced⟩ := sync_of_listed tracked listed
      simp only [refreshTurn, synced, replaced, if_true, List.mem_append, List.mem_singleton,
        Ne.symm apart, or_false, and_true]
      exact InstalledStore.ofSystem_replaceInstalledState_of_ne apart

theorem foldl_refreshTurn_of_not_mem (tracked : tracksInstalled config = true)
    {records : List TransactionRecord} {system : String} {systems : List String}
    (absent : system ∉ systems) (found : List String × World σ) :
    (systems.foldl (refreshTurn host config records) found).2.installed.ofSystem system =
        found.2.installed.ofSystem system ∧
      (system ∈ (systems.foldl (refreshTurn host config records) found).1 ↔ system ∈ found.1) := by
  induction systems generalizing found with
  | nil => simp
  | cons turn systems ih =>
      simp only [List.mem_cons, not_or] at absent
      obtain ⟨same, listed⟩ := @refreshTurn_of_ne σ host config tracked records _ _ (Ne.symm absent.1) found
      obtain ⟨rest, again⟩ := ih absent.2 (refreshTurn host config records found turn)
      exact ⟨rest.trans same, again.trans listed⟩

/-- The world in which the turn of a system comes. -/
def turnOf (host : Host σ) (config : ExecutionConfig) (records : List TransactionRecord) (system : String)
    (world : World σ) : World σ :=
  (((refreshTargets records).takeWhile fun turn => turn != system).foldl
    (refreshTurn host config records) ([], world)).2

theorem split_at_turn {systems : List String} {system : String} (member : system ∈ systems)
    (distinct : systems.Nodup) :
    ∃ later, systems = (systems.takeWhile fun turn => turn != system) ++ system :: later ∧
      system ∉ (systems.takeWhile fun turn => turn != system) ∧ system ∉ later := by
  induction systems with
  | nil => cases member
  | cons first systems ih =>
      obtain ⟨fresh, rest⟩ := List.nodup_cons.mp distinct
      by_cases same : first = system
      · subst same
        exact ⟨systems, by simp, by simp, fresh⟩
      · have behind : system ∈ systems := (List.mem_cons.mp member).resolve_left (Ne.symm same)
        obtain ⟨later, split, before, after⟩ := ih behind rest
        have kept : (first != system) = true := by simpa using same
        simp only [List.takeWhile_cons, kept, if_true]
        exact ⟨later, by rw [List.cons_append, ← split], by simp [Ne.symm same, before], after⟩

/-- What the refresh does with a system whose turn comes. -/
theorem refreshInstalledState_target (tracked : tracksInstalled config = true)
    {records : List TransactionRecord} {system : String} (target : system ∈ refreshTargets records)
    (world : World σ) :
    (turnOf host config records system world).installed.ofSystem system = world.installed.ofSystem system ∧
    (pluginListing host system (allowsEmpty records system) (turnOf host config records system world).plugins =
        none →
      system ∉ (refreshInstalledState host config records world).1 ∧
      (refreshInstalledState host config records world).2.installed.ofSystem system =
        world.installed.ofSystem system) ∧
    ∀ items, pluginListing host system (allowsEmpty records system)
        (turnOf host config records system world).plugins = some items →
      system ∈ (refreshInstalledState host config records world).1 ∧
      (refreshInstalledState host config records world).2.installed.ofSystem system =
        ((turnOf host config records system world).installed.replaceInstalledState system
          (host.now (host.listPackages system (turnOf host config records system world).plugins).2)
          (items.map (listedEntry system))).ofSystem system := by
  obtain ⟨later, split, before, after⟩ := split_at_turn target (refreshTargets_nodup records)
  rw [refreshInstalledState_eq tracked, split, List.foldl_append, List.foldl_cons]
  have early := @foldl_refreshTurn_of_not_mem σ host config tracked records system _ before ([], world)
  generalize reached : ((refreshTargets records).takeWhile fun turn => turn != system).foldl
    (refreshTurn host config records) ([], world) = found at early
  have turn : turnOf host config records system world = found.2 := by rw [turnOf, reached]
  rw [turn]
  have rest := @foldl_refreshTurn_of_not_mem σ host config tracked records system later after
    (refreshTurn host config records found system)
  refine ⟨early.1, fun unlisted => ?_, fun items listed => ?_⟩
  · obtain ⟨missed, unchanged⟩ := sync_of_unlisted tracked unlisted
    rw [rest.2, rest.1]
    constructor
    · simpa [refreshTurn, missed] using fun found => by simpa using early.2.mp found
    · rw [← early.1]
      simp only [refreshTurn, unchanged]
  · obtain ⟨synced, replaced⟩ := sync_of_listed tracked listed
    rw [rest.1, rest.2]
    simp [refreshTurn, synced, replaced]

end Targets

section Fallback

/-- An entry that a record speaks of; a record without a version speaks of all versions. -/
def recordNames (record : TransactionRecord) (entry : InstalledEntry) : Prop :=
  entry.system = record.system ∧ entry.name = record.packageName ∧
    (record.packageVersion = "" ∨ entry.version = record.packageVersion)

instance (record : TransactionRecord) (entry : InstalledEntry) : Decidable (recordNames record entry) :=
  inferInstanceAs (Decidable (entry.system = record.system ∧ entry.name = record.packageName ∧
    (record.packageVersion = "" ∨ entry.version = record.packageVersion)))

/-- The fallback has written an entry without a time for the record, or nothing with a
time is left that the record speaks of. -/
def Timeless (record : TransactionRecord) (store : InstalledStore) : Prop :=
  (∃ entry ∈ store, entry.system = record.system ∧ entry.name = record.packageName ∧
      entry.version = record.packageVersion ∧ entry.installedAt = "") ∨
    ∀ entry ∈ store, recordNames record entry → entry.installedAt = ""

/-- The records `recordHistory` handles one by one. -/
def fallbackRecords (records : List TransactionRecord) (refreshed : List String) : List TransactionRecord :=
  records.filter fun record => isMutatingAction record.action && !refreshed.contains record.system

variable {record : TransactionRecord} {store : InstalledStore}

theorem Timeless.put (timeless : Timeless record store) {written : InstalledEntry}
    (fresh : written.installedAt = "") : Timeless record (store.put written) := by
  rcases timeless with ⟨entry, member, system, name, version, time⟩ | none
  · left
    by_cases same : sameEntryKey entry written = true
    · obtain ⟨sameSystem, sameName, sameVersion⟩ := sameEntryKey_iff.1 same
      exact ⟨written, InstalledStore.mem_put.2 (Or.inl rfl), sameSystem.symm.trans system,
        sameName.symm.trans name, sameVersion.symm.trans version, fresh⟩
    · exact ⟨entry, InstalledStore.mem_put.2 (Or.inr ⟨member, by simpa using same⟩), system, name,
        version, time⟩
  · right
    intro entry member named
    rcases InstalledStore.mem_put.1 member with rfl | old
    · exact fresh
    · exact none entry old.1 named

theorem Timeless.removeEntries (timeless : Timeless record store) (system name version : String) :
    Timeless record (store.removeEntries system name version) := by
  rcases timeless with ⟨entry, member, sameSystem, sameName, sameVersion, time⟩ | none
  · by_cases taken : entry.system = system ∧ entry.name = name ∧ (version = "" ∨ entry.version = version)
    · -- whatever else the record speaks of goes as well
      right
      intro other listed named
      obtain ⟨_, kept⟩ := InstalledStore.mem_removeEntries.1 listed
      refine absurd ⟨named.1.trans (sameSystem.symm.trans taken.1),
        named.2.1.trans (sameName.symm.trans taken.2.1), ?_⟩ kept
      rcases taken.2.2 with all | same
      · exact Or.inl all
      · rcases named.2.2 with unversioned | versioned
        · exact Or.inl (same.symm.trans (sameVersion.trans unversioned))
        · exact Or.inr (versioned.trans (sameVersion.symm.trans same))
    · exact Or.inl ⟨entry, InstalledStore.mem_removeEntries.2 ⟨member, taken⟩, sameSystem, sameName, sameVersion, time⟩
  · right
    intro entry member
    exact none entry (InstalledStore.mem_removeEntries.1 member).1

theorem Timeless.updateInstalledState (timeless : Timeless record store) (action : ActionType)
    (system name version : String) :
    Timeless record (store.updateInstalledState action system name version) := by
  unfold InstalledStore.updateInstalledState
  split
  · exact timeless.removeEntries system name version
  · split
    · exact (timeless.removeEntries system name "").put rfl
    · split
      · exact timeless.put rfl
      · exact timeless

theorem timeless_of_updateInstalledState (installs : isInstallLikeAction record.action = true)
    (store : InstalledStore) :
    Timeless record (store.updateInstalledState record.action record.system record.packageName
      record.packageVersion) := by
  have written : ∀ base : InstalledStore, Timeless record (base.put
      { name := record.packageName, version := record.packageVersion, system := record.system }) :=
    fun base => Or.inl ⟨_, InstalledStore.mem_put.2 (Or.inl rfl), rfl, rfl, rfl, rfl⟩
  unfold InstalledStore.updateInstalledState
  split
  · rename_i removes
    simp [removes, isInstallLikeAction] at installs
  · split
    · exact written _
    · split
      · exact written _
      · rename_i update install
        simp only [isInstallLikeAction, Bool.or_eq_true, beq_iff_eq] at installs
        rcases installs with either | updates
        · exact absurd either install
        · exact absurd updates update

theorem updateInstalledRecord_installed (config : ExecutionConfig) (record : TransactionRecord)
    (world : World σ) :
    (updateInstalledRecord config record world).installed =
      if config.trackInstalled && record.status == .success then
        world.installed.updateInstalledState record.action record.system record.packageName
          record.packageVersion
      else world.installed := by
  unfold updateInstalledRecord
  split <;> rfl

/-- Records handled one by one leave the entries of other systems alone. -/
theorem foldl_updateInstalledRecord_of_ne {system : String} {records : List TransactionRecord}
    (apart : ∀ record ∈ records, record.system ≠ system) (world : World σ) :
    (records.foldl (fun world record => updateInstalledRecord config record world) world).installed.ofSystem
      system = world.installed.ofSystem system := by
  induction records generalizing world with
  | nil => rfl
  | cons record records ih =>
      rw [List.foldl_cons, ih fun later member => apart later (List.mem_cons_of_mem _ member),
        updateInstalledRecord_installed]
      split
      · exact InstalledStore.ofSystem_updateInstalledState_of_ne (apart record List.mem_cons_self)
      · rfl

/-- A record handled on its own ends without a time, whatever else is handled. -/
theorem foldl_updateInstalledRecord_timeless (tracked : config.trackInstalled = true)
    (succeeded : record.status = .success) (installs : isInstallLikeAction record.action = true)
    {records : List TransactionRecord} (member : record ∈ records) (world : World σ) :
    Timeless record
      (records.foldl (fun world record => updateInstalledRecord config record world) world).installed := by
  have kept : ∀ (records : List TransactionRecord) (world : World σ), Timeless record world.installed →
      Timeless record
        (records.foldl (fun world record => updateInstalledRecord config record world) world).installed := by
    intro records
    induction records with
    | nil => exact fun _ timeless => timeless
    | cons other records ih =>
        intro world timeless
        refine ih _ ?_
        rw [updateInstalledRecord_installed]
        split
        · exact timeless.updateInstalledState _ _ _ _
        · exact timeless
  obtain ⟨before, after, rfl⟩ := List.append_of_mem member
  rw [List.foldl_append, List.foldl_cons]
  refine kept after _ ?_
  rw [updateInstalledRecord_installed, if_pos (by simp [tracked, succeeded])]
  exact timeless_of_updateInstalledState installs _

end Fallback

section Agreement

/-- What a record of an installed package is meant to leave: an entry, and every entry it
speaks of has a time and the owners it had; behind an update also the owners of the only
entry of that name. -/
structure KeepsOwnership (record : TransactionRecord) (before after : InstalledStore) : Prop where
  present : ∃ entry ∈ after.loadInstalledState, recordNames record entry
  timed : ∀ entry ∈ after.loadInstalledState, recordNames record entry → entry.installedAt ≠ ""
  owned : ∀ entry ∈ after.loadInstalledState, recordNames record entry →
    ∀ earlier ∈ before.loadInstalledState, sameEntryKey earlier entry = true →
      earlier.owners ⊆ entry.owners
  updated : record.action = .update → ∀ entry ∈ after.loadInstalledState, recordNames record entry →
    ∀ earlier, (before.loadInstalledState.filter fun other =>
        other.system == record.system && other.name == record.packageName) = [earlier] →
      earlier.owners ⊆ entry.owners

/-- The entries of a system that a refresh finds. -/
def existingEntries (store : InstalledStore) (system : String) : List InstalledEntry :=
  (store.ofSystem system).filterMap readBack

/-- The plugin's list names the package, and whatever is carried over for it has a time. -/
def ListedWithTime (host : Host σ) (config : ExecutionConfig) (records : List TransactionRecord)
    (record : TransactionRecord) (world : World σ) : Prop :=
  ∃ items, pluginListing host record.system false
      (turnOf host config records record.system world).plugins = some items ∧
    (∃ item ∈ items, recordNames record (listedEntry record.system item)) ∧
    ∀ item ∈ items, recordNames record (listedEntry record.system item) →
      ∀ found, InstalledStore.selectExisting (existingEntries world.installed record.system)
        (listedEntry record.system item) = some found → found.installedAt ≠ ""

theorem mem_ofSystem_load {store : InstalledStore} {system : String} {entry : InstalledEntry} :
    entry ∈ existingEntries store system ↔ entry ∈ store.loadInstalledState ∧ entry.system = system := by
  simp only [existingEntries, InstalledStore.loadInstalledState, List.mem_filterMap, InstalledStore.mem_ofSystem]
  constructor
  · intro found
    obtain ⟨stored, ⟨member, same⟩, read⟩ := found
    exact ⟨⟨stored, member, read⟩, (readBack_key read).1.trans same⟩
  · intro found
    obtain ⟨⟨stored, member, read⟩, same⟩ := found
    exact ⟨stored, ⟨member, (readBack_key read).1.symm.trans same⟩, read⟩

theorem filter_existingEntries (store : InstalledStore) (system name : String) :
    ((existingEntries store system).filter fun entry => entry.name == name) =
      store.loadInstalledState.filter fun entry => entry.system == system && entry.name == name := by
  simp only [existingEntries, InstalledStore.ofSystem, InstalledStore.loadInstalledState]
  induction store with
  | nil => rfl
  | cons entry store ih =>
      cases read : readBack entry with
      | none =>
          by_cases same : entry.system = system
          · simpa [List.filter_cons, same, read] using ih
          · simpa [List.filter_cons, same, read] using ih
      | some found =>
          have key := (readBack_key read).1
          by_cases same : entry.system = system
          · simp [List.filter_cons, same, read, key, ih]
          · simp [same, read, key, ih]

/-- Entries of a system only depend on what is stored of that system. -/
theorem existingEntries_congr {left right : InstalledStore} {system : String}
    (same : left.ofSystem system = right.ofSystem system) :
    existingEntries left system = existingEntries right system := by
  rw [existingEntries, existingEntries, same]

/-- The refreshed entry of a listed package. -/
def refreshedItem (store : InstalledStore) (system syncedAt : String) (item : String × String) :
    InstalledEntry :=
  InstalledStore.refreshedEntry (existingEntries store system) system syncedAt (listedEntry system item)

/-- Behind the refresh of a system exactly the listed packages are stored for it. -/
theorem mem_ofSystem_replaceInstalledState {store : InstalledStore} {system syncedAt : String}
    {items : List (String × String)} (named : ∀ item ∈ items, item.1 ≠ "") {entry : InstalledEntry} :
    entry ∈ (store.replaceInstalledState system syncedAt (items.map (listedEntry system))).ofSystem system ↔
      ∃ item ∈ items, entry = refreshedItem store system syncedAt item := by
  have all : ((items.map (listedEntry system)).filter fun entry => !entry.name.isEmpty) =
      items.map (listedEntry system) := by
    rw [List.filter_eq_self]
    intro listed member
    obtain ⟨item, inList, rfl⟩ := List.mem_map.mp member
    simpa [listedEntry] using named item inList
  have agree : ∀ left ∈ items, ∀ right ∈ items,
      sameEntryKey (refreshedItem store system syncedAt left) (refreshedItem store system syncedAt right) = true →
        refreshedItem store system syncedAt left = refreshedItem store system syncedAt right := by
    intro left _ right _ same
    obtain ⟨_, name, version⟩ := sameEntryKey_iff.1 same
    have equal : left = right := Prod.ext name version
    rw [equal]
  have replaced : store.replaceInstalledState system syncedAt (items.map (listedEntry system)) =
      items.foldl (fun written item => InstalledStore.put written (refreshedItem store system syncedAt item))
        (store.filter fun entry => entry.system != system) := by
    rw [InstalledStore.replaceInstalledState, all, List.foldl_map]
    rfl
  rw [InstalledStore.mem_ofSystem, replaced, InstalledStore.mem_foldl_put agree]
  constructor
  · intro found
    rcases found with ⟨listed | ⟨old, _⟩, same⟩
    · exact listed
    · simp [same] at old
  · intro found
    obtain ⟨item, member, rfl⟩ := found
    exact ⟨Or.inl ⟨item, member, rfl⟩, rfl⟩

theorem pluginListing_named {system : String} {allowEmpty : Bool} {plugins : σ}
    {items : List (String × String)} (listed : pluginListing host system allowEmpty plugins = some items) :
    system ≠ "" ∧ ∀ item ∈ items, item.1 ≠ "" := by
  simp only [pluginListing] at listed
  split at listed
  · cases listed
  · rename_i reachable
    split at listed
    · cases listed
    · split at listed
      · cases listed
      · cases listed
        simp only [Bool.or_eq_true, String.isEmpty_iff, not_or] at reachable
        refine ⟨reachable.1, fun item member => ?_⟩
        simpa using (List.mem_filter.mp member).2

/-- A record of an installed package makes its system a target that may not end up empty. -/
theorem target_of_installs {records : List TransactionRecord} {record : TransactionRecord}
    (member : record ∈ records) (succeeded : record.status = .success)
    (installs : isInstallLikeAction record.action = true) (filed : record.system ≠ "") :
    record.system ∈ refreshTargets records ∧ allowsEmpty records record.system = false := by
  have filtered : actionUsesDesiredStateFilter record.action = true ∧ record.action ≠ .remove := by
    cases action : record.action <;> simp [action, isInstallLikeAction] at installs <;>
      simp [actionUsesDesiredStateFilter]
  have refreshed : refreshes record = true := by
    simp [refreshes, succeeded, filtered.1, filed]
  refine ⟨mem_refreshTargets.2 ⟨record, member, refreshed, rfl⟩, ?_⟩
  rw [allowsEmpty, List.all_eq_false]
  exact ⟨record, List.mem_filter.mpr ⟨member, by simp [refreshed]⟩, by simpa using filtered.2⟩

section Owners

variable {store : InstalledStore} {system : String}

theorem existing_unique (distinct : store.KeysDistinct) {left right : InstalledEntry}
    (leftMember : left ∈ existingEntries store system) (rightMember : right ∈ existingEntries store system)
    (same : sameEntryKey left right = true) : left = right := by
  obtain ⟨leftStored, leftListed, leftRead⟩ := List.mem_filterMap.mp leftMember
  obtain ⟨rightStored, rightListed, rightRead⟩ := List.mem_filterMap.mp rightMember
  have leftKey := readBack_key leftRead
  have rightKey := readBack_key rightRead
  have stored : sameEntryKey leftStored rightStored = true := by
    rw [sameEntryKey_iff] at same ⊢
    rw [← leftKey.1, ← leftKey.2.1, ← leftKey.2.2.1, ← rightKey.1, ← rightKey.2.1, ← rightKey.2.2.1]
    exact same
  have equal : leftStored = rightStored := distinct.eq_of_sameKey
    (InstalledStore.mem_ofSystem.1 leftListed).1 (InstalledStore.mem_ofSystem.1 rightListed).1 stored
  subst equal
  exact Option.some.inj (leftRead.symm.trans rightRead)

theorem existing_system {entry : InstalledEntry} (member : entry ∈ existingEntries store system) :
    entry.system = system := (mem_ofSystem_load.1 member).2

/-- The entry of the same name and version is the one that is carried over. -/
theorem selectExisting_of_sameKey (distinct : store.KeysDistinct) {entry candidate : InstalledEntry}
    (member : entry ∈ existingEntries store system) (name : entry.name = candidate.name)
    (version : entry.version = candidate.version) :
    InstalledStore.selectExisting (existingEntries store system) candidate = some entry := by
  have nonempty : ((existingEntries store system).filter fun other =>
      other.name == candidate.name && other.version == candidate.version) ≠ [] :=
    List.ne_nil_of_mem (List.mem_filter.mpr ⟨member, by simp [name, version]⟩)
  cases last : ((existingEntries store system).filter fun other =>
      other.name == candidate.name && other.version == candidate.version).getLast? with
  | none => exact absurd (List.getLast?_eq_none_iff.mp last) nonempty
  | some found =>
      obtain ⟨listed, key⟩ := List.mem_filter.mp (List.mem_of_getLast? last)
      simp only [Bool.and_eq_true, beq_iff_eq] at key
      have same : found = entry := existing_unique distinct listed member (sameEntryKey_iff.2
        ⟨(existing_system listed).trans (existing_system member).symm, key.1.trans name.symm,
          key.2.trans version.symm⟩)
      rw [InstalledStore.selectExisting, last, same]

/-- The only entry of a name is carried over to every listed version. -/
theorem selectExisting_of_onlyName {existing : List InstalledEntry} {entry candidate : InstalledEntry}
    (only : (existing.filter fun other => other.name == candidate.name) = [entry]) :
    InstalledStore.selectExisting existing candidate = some entry := by
  cases last : (existing.filter fun other =>
      other.name == candidate.name && other.version == candidate.version).getLast? with
  | none => rw [InstalledStore.selectExisting, last, only]
  | some found =>
      obtain ⟨listed, key⟩ := List.mem_filter.mp (List.mem_of_getLast? last)
      simp only [Bool.and_eq_true] at key
      have inName : found ∈ existing.filter fun other => other.name == candidate.name :=
        List.mem_filter.mpr ⟨listed, key.1⟩
      rw [only, List.mem_singleton] at inName
      rw [InstalledStore.selectExisting, last, inName]

theorem owners_subset_refreshed {syncedAt : String} {item : String × String} {found entry : InstalledEntry}
    (selected : InstalledStore.selectExisting (existingEntries store system) (listedEntry system item) =
      some found)
    (member : found ∈ existingEntries store system)
    (read : readBack (refreshedItem store system syncedAt item) = some entry) :
    found.owners ⊆ entry.owners := by
  obtain ⟨stored, _, reads⟩ := List.mem_filterMap.mp member
  have named : ∀ owner ∈ found.owners, owner ≠ "" := by
    rw [(readBack_key reads).2.2.2.2]
    exact fun owner listed => (mem_normalizeOwners.1 listed).2
  have owners : (refreshedItem store system syncedAt item).owners = normalizeOwners found.owners := by
    simp only [refreshedItem, InstalledStore.refreshedEntry]
    rw [show ({ listedEntry system item with system := system } : InstalledEntry) = listedEntry system item
      from rfl, selected]
    rfl
  intro owner listed
  rw [(readBack_key read).2.2.2.2, owners]
  exact mem_normalizeOwners.2 ⟨mem_normalizeOwners.2 ⟨listed, named owner listed⟩, named owner listed⟩

theorem installedAt_refreshed (syncedAt : String) (item : String × String) :
    (refreshedItem store system syncedAt item).installedAt =
      ((InstalledStore.selectExisting (existingEntries store system) (listedEntry system item)).map
        (·.installedAt)).getD syncedAt := rfl

end Owners

theorem recordNames_readBack {record : TransactionRecord} {stored entry : InstalledEntry}
    (read : readBack stored = some entry) : recordNames record entry ↔ recordNames record stored := by
  obtain ⟨system, name, version, _⟩ := readBack_key read
  simp only [recordNames, system, name, version]

/-- The fallback never leaves what the record is meant to leave. -/
theorem Timeless.not_keepsOwnership {record : TransactionRecord} {before after : InstalledStore}
    (timeless : Timeless record after) : ¬ KeepsOwnership record before after := by
  intro keeps
  obtain ⟨entry, loaded, names⟩ := keeps.present
  obtain ⟨stored, member, read⟩ := InstalledStore.mem_loadInstalledState.1 loaded
  obtain ⟨filed, named⟩ := readBack_named read
  have stillNames := (recordNames_readBack read).mp names
  rcases timeless with ⟨marked, listed, system, name, version, time⟩ | none
  · obtain ⟨found, reads⟩ := readBack_isSome (system.trans stillNames.1.symm ▸ filed)
      (name.trans stillNames.2.1.symm ▸ named)
    have markedNames : recordNames record marked := ⟨system, name, Or.inr version⟩
    have timed := keeps.timed found (InstalledStore.mem_loadInstalledState.2 ⟨marked, listed, reads⟩)
      ((recordNames_readBack reads).mpr markedNames)
    exact timed ((readBack_key reads).2.2.2.1.trans time)
  · exact keeps.timed entry loaded names ((readBack_key read).2.2.2.1.trans (none stored member stillNames))

variable {records : List TransactionRecord} {record : TransactionRecord} {world : World σ}

theorem recordHistory_of_unlisted (tracked : tracksInstalled config = true) (member : record ∈ records)
    (succeeded : record.status = .success) (installs : isInstallLikeAction record.action = true)
    (missed : record.system ∉ (refreshInstalledState host config records world).1) :
    Timeless record (recordHistory host config records world).installed := by
  obtain ⟨managed, tracking⟩ : config.historyManager = true ∧ config.trackInstalled = true := by
    simpa [tracksInstalled] using tracked
  have mutating : isMutatingAction record.action = true := by
    cases action : record.action <;> simp [action, isInstallLikeAction] at installs <;>
      simp [isMutatingAction]
  rw [recordHistory, if_pos managed]
  apply foldl_updateInstalledRecord_timeless tracking succeeded installs
  rw [(refreshInstalledState_appendEvents host config records world).1]
  exact List.mem_filter.mpr ⟨member, by simp [mutating, missed]⟩

theorem recordHistory_of_refreshed (tracked : tracksInstalled config = true) {system : String}
    (refreshed : system ∈ (refreshInstalledState host config records world).1) :
    (recordHistory host config records world).installed.ofSystem system =
      (refreshInstalledState host config records world).2.installed.ofSystem system := by
  obtain ⟨managed, _⟩ : config.historyManager = true ∧ config.trackInstalled = true := by
    simpa [tracksInstalled] using tracked
  obtain ⟨sameSystems, sameInstalled⟩ := refreshInstalledState_appendEvents host config records world
  rw [recordHistory, if_pos managed, ← sameInstalled]
  apply foldl_updateInstalledRecord_of_ne
  intro other listed same
  obtain ⟨_, kept⟩ := List.mem_filter.mp listed
  simp [same, sameSystems, refreshed] at kept

/-- A store whose entries of the system are the refreshed ones of a list. -/
theorem keepsOwnership_iff_of_listed {before after : InstalledStore} {syncedAt : String}
    {items : List (String × String)} (distinct : before.KeysDistinct) (filed : record.system ≠ "")
    (named : ∀ item ∈ items, item.1 ≠ "") (clock : syncedAt ≠ "")
    (stored : ∀ entry, entry ∈ after.ofSystem record.system ↔
      ∃ item ∈ items, entry = refreshedItem before record.system syncedAt item) :
    KeepsOwnership record before after ↔
      (∃ item ∈ items, recordNames record (listedEntry record.system item)) ∧
      ∀ item ∈ items, recordNames record (listedEntry record.system item) →
        ∀ found, InstalledStore.selectExisting (existingEntries before record.system)
          (listedEntry record.system item) = some found → found.installedAt ≠ "" := by
  -- what the record speaks of behind the refresh are refreshed entries of listed packages
  have loaded : ∀ entry, entry ∈ after.loadInstalledState → recordNames record entry →
      ∃ item ∈ items, recordNames record (listedEntry record.system item) ∧
        readBack (refreshedItem before record.system syncedAt item) = some entry := by
    intro entry member names
    obtain ⟨written, listed, read⟩ := InstalledStore.mem_loadInstalledState.1 member
    have stillNames := (recordNames_readBack read).mp names
    obtain ⟨item, inList, rfl⟩ := (stored written).mp (InstalledStore.mem_ofSystem.2 ⟨listed, stillNames.1⟩)
    exact ⟨item, inList, stillNames, read⟩
  have written : ∀ item ∈ items, ∃ entry ∈ after.loadInstalledState,
      readBack (refreshedItem before record.system syncedAt item) = some entry := by
    intro item member
    obtain ⟨entry, read⟩ := @readBack_isSome (refreshedItem before record.system syncedAt item) filed
      (named item member)
    have listed := (InstalledStore.mem_ofSystem.1 ((stored _).mpr ⟨item, member, rfl⟩)).1
    exact ⟨entry, InstalledStore.mem_loadInstalledState.2 ⟨_, listed, read⟩, read⟩
  constructor
  · intro keeps
    constructor
    · obtain ⟨entry, member, names⟩ := keeps.present
      obtain ⟨item, inList, itemNames, _⟩ := loaded entry member names
      exact ⟨item, inList, itemNames⟩
    · intro item inList names found selected
      obtain ⟨entry, member, read⟩ := written item inList
      have timed := keeps.timed entry member ((recordNames_readBack read).mpr names)
      rw [(readBack_key read).2.2.2.1, installedAt_refreshed, selected] at timed
      exact timed
  · intro condition
    obtain ⟨⟨item, inList, names⟩, timed⟩ := condition
    constructor
    · obtain ⟨entry, member, read⟩ := written item inList
      exact ⟨entry, member, (recordNames_readBack read).mpr names⟩
    · intro entry member entryNames
      obtain ⟨item, inList, itemNames, read⟩ := loaded entry member entryNames
      rw [(readBack_key read).2.2.2.1, installedAt_refreshed]
      cases selected : InstalledStore.selectExisting (existingEntries before record.system)
          (listedEntry record.system item) with
      | none => exact clock
      | some found => exact timed item inList itemNames found selected
    · intro entry member entryNames earlier earlierMember sameKey
      obtain ⟨item, inList, itemNames, read⟩ := loaded entry member entryNames
      obtain ⟨sameSystem, sameName, sameVersion⟩ := sameEntryKey_iff.1 sameKey
      obtain ⟨_, entryName, entryVersion, _⟩ := readBack_key read
      have existing : earlier ∈ existingEntries before record.system :=
        mem_ofSystem_load.2 ⟨earlierMember, sameSystem.trans entryNames.1⟩
      exact owners_subset_refreshed (selectExisting_of_sameKey distinct existing
        (sameName.trans entryName) (sameVersion.trans entryVersion)) existing read
    · intro _ entry member entryNames earlier only
      obtain ⟨item, inList, itemNames, read⟩ := loaded entry member entryNames
      have onlyName : ((existingEntries before record.system).filter fun other =>
          other.name == (listedEntry record.system item).name) = [earlier] := by
        rw [← only, show (listedEntry record.system item).name = record.packageName from itemNames.2.1]
        exact filter_existingEntries before record.system record.packageName
      have existing : earlier ∈ existingEntries before record.system :=
        (List.mem_filter.mp (onlyName ▸ List.mem_singleton_self earlier)).1
      exact owners_subset_refreshed (selectExisting_of_onlyName onlyName) existing read

/-- Both paths leave entries with their owners and a time exactly when the plugin lists
the package and nothing without a time is carried over for it. -/
theorem recordHistory_keepsOwnership_iff (tracked : tracksInstalled config = true)
    (clock : ∀ plugins, host.now plugins ≠ "") (distinct : world.installed.KeysDistinct)
    (member : record ∈ records) (succeeded : record.status = .success)
    (installs : isInstallLikeAction record.action = true) :
    KeepsOwnership record world.installed (recordHistory host config records world).installed ↔
      ListedWithTime host config records record world := by
  by_cases filed : record.system = ""
  · -- no entry is filed under the empty system
    refine iff_of_false (fun keeps => ?_) (fun listed => ?_)
    · obtain ⟨entry, loaded, names⟩ := keeps.present
      obtain ⟨stored, _, read⟩ := InstalledStore.mem_loadInstalledState.1 loaded
      exact (readBack_named read).1 (((recordNames_readBack read).mp names).1.trans filed)
    · obtain ⟨items, listing, _⟩ := listed
      exact (pluginListing_named listing).1 filed
  · obtain ⟨target, mayNotBeEmpty⟩ := target_of_installs member succeeded installs filed
    obtain ⟨same, unlisted, listed⟩ := @refreshInstalledState_target σ host config tracked records _ target world
    rw [mayNotBeEmpty] at unlisted listed
    cases listing : pluginListing host record.system false
        (turnOf host config records record.system world).plugins with
    | none =>
        refine iff_of_false ?_ (fun condition => ?_)
        · exact (recordHistory_of_unlisted tracked member succeeded installs (unlisted listing).1).not_keepsOwnership
        · obtain ⟨items, impossible, _⟩ := condition
          rw [listing] at impossible
          cases impossible
    | some items =>
        obtain ⟨refreshed, replaced⟩ := listed items listing
        have stored : ∀ entry,
            entry ∈ (recordHistory host config records world).installed.ofSystem record.system ↔
              ∃ item ∈ items, entry = refreshedItem world.installed record.system
                (host.now (host.listPackages record.system
                  (turnOf host config records record.system world).plugins).2) item := by
          intro entry
          rw [recordHistory_of_refreshed tracked refreshed, replaced,
            mem_ofSystem_replaceInstalledState (pluginListing_named listing).2]
          simp only [refreshedItem, existingEntries_congr same]
        rw [keepsOwnership_iff_of_listed distinct filed (pluginListing_named listing).2 (clock _) stored]
        constructor
        · intro condition
          exact ⟨items, listing, condition⟩
        · intro condition
          obtain ⟨others, again, rest⟩ := condition
          rw [listing, Option.some.injEq] at again
          exact again ▸ rest

/-- An interpreter that is installed for the sake of a module. -/
def ownedPython : InstalledEntry where
  name := "python"
  version := "3"
  system := "apt"
  installedAt := "monday"
  installMethod := "dependency"
  owners := ["pkg\npip\nnumpy"]

def ownedInterpreter : World Unit where
  plugins := ()
  installed := [ownedPython]

def interpreterInstalled : TransactionRecord :=
  { system := "apt", action := .install, packageName := "python", packageVersion := "3", status := .success }

/-- A host whose plugins list the interpreter. -/
def listingHost : Host Unit :=
  { obligingHost fun _ => false with
    listPackages := fun _ world => ([("python", "3")], world)
    now := fun _ => "tuesday" }

theorem recordHistory_keepsOwnership_listed :
    ListedWithTime listingHost {} [interpreterInstalled] interpreterInstalled ownedInterpreter ∧
    KeepsOwnership interpreterInstalled ownedInterpreter.installed
      (recordHistory listingHost {} [interpreterInstalled] ownedInterpreter).installed := by
  have listed : ListedWithTime listingHost {} [interpreterInstalled] interpreterInstalled
      ownedInterpreter := by
    refine ⟨[("python", "3")], by decide, ⟨("python", "3"), by simp, by decide⟩, ?_⟩
    intro item member _ found selected
    rw [List.mem_singleton] at member
    subst member
    have known : InstalledStore.selectExisting (existingEntries ownedInterpreter.installed "apt")
        (listedEntry "apt" ("python", "3")) = some ownedPython := by decide
    have same := Option.some.inj (known.symm.trans selected)
    rw [← same]
    decide
  refine ⟨listed, (recordHistory_keepsOwnership_iff (by decide) (fun _ => by simp [listingHost]) ?_
    List.mem_cons_self rfl (by decide)).mpr listed⟩
  simp only [InstalledStore.KeysDistinct, ownedInterpreter]
  decide

/-- A plugin that lists nothing: reinstalling the interpreter loses its owner and its time. -/
theorem fallback_loses_owner :
    tracksInstalled {} = true ∧ ownedInterpreter.installed.KeysDistinct ∧
    (recordHistory (obligingHost fun _ => false) {} [interpreterInstalled] ownedInterpreter).installed.loadInstalledState =
      [{ name := "python", version := "3", system := "apt", installMethod := "unknown" }] ∧
    ¬ KeepsOwnership interpreterInstalled ownedInterpreter.installed
      (recordHistory (obligingHost fun _ => false) {} [interpreterInstalled] ownedInterpreter).installed := by
  have lost : (recordHistory (obligingHost fun _ => false) {} [interpreterInstalled]
      ownedInterpreter).installed.loadInstalledState =
        [{ name := "python", version := "3", system := "apt", installMethod := "unknown" }] := by decide
  refine ⟨by decide, ?_, lost, fun keeps => ?_⟩
  · simp only [InstalledStore.KeysDistinct, ownedInterpreter]
    decide
  · obtain ⟨entry, member, names⟩ := keeps.present
    have timed := keeps.timed entry member names
    rw [lost, List.mem_singleton] at member
    exact timed (by rw [member])

end Agreement

end ReqPack.Executor
