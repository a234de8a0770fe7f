import ReqPack.Storage.InstalledInvariant

/-! # Replacing the entries of a system

`replaceInstalledState` writes what a plugin lists over what was stored for its system.
Whatever calls came before, every package key stands next to the record of an entry of
that key; this is all it takes.
-/

namespace ReqPack.Storage

open ReqPack.Data
open ReqPack.Data.Octets

variable {α : Type} [Alphabet α]

def entryKey (entry : StoredEntry α) : List α := installedStateKey entry.system entry.name entry.version

/-- Every package key stands next to the record of an entry of that key. -/
def Database.Filed (database : Database α) : Prop :=
  ∀ key payload, database.get key = some payload → isPackageKey key = true →
    ∃ entry, key = entryKey entry ∧ payload = serializeInstalledEntry entry

section Filing

theorem deserialize_serialize_eq (entry : StoredEntry α) :
    deserializeInstalledEntry (serializeInstalledEntry entry) =
      if entry.name = [] ∨ entry.system = [] then none else some (completeEntry entry) := by
  simp [deserializeInstalledEntry, pieces_serializeInstalledEntry, foldl_readEntryLine]

theorem isPackageKey_entryKey (entry : StoredEntry α) : isPackageKey (entryKey entry) = true :=
  List.isPrefixOf_iff_prefix.mpr (starts_installedStateKey _ _ _)

theorem entryKey_inj {left right : StoredEntry α} :
    entryKey left = entryKey right ↔
      left.system = right.system ∧ left.name = right.name ∧ left.version = right.version := installedStateKey_inj

namespace Database

variable {database : Database α}

theorem Filed.put (filed : database.Filed) {key payload : List α}
    (fits : isPackageKey key = true → ∃ entry, key = entryKey entry ∧ payload = serializeInstalledEntry entry) :
    Filed (database.put key payload) := by
  intro other found present isPackage
  rw [KeyValue.get_put] at present
  split at present
  · rename_i same
    subst same
    exact Option.some.inj present ▸ fits isPackage
  · exact filed other found present isPackage

theorem Filed.markInitialized (filed : database.Filed) : database.markInitialized.Filed :=
  filed.put (by simp [not_isPackageKey_initializedKey])

theorem Filed.putEntry (filed : database.Filed) (entry : StoredEntry α) : (database.putEntry entry).Filed :=
  filed.put fun _ => ⟨entry, rfl, rfl⟩

theorem Filed.foldl_putEntry {entries : List (StoredEntry α)} (filed : database.Filed) :
    (entries.foldl Database.putEntry database).Filed := by
  induction entries generalizing database with
  | nil => exact filed
  | cons entry entries ih => exact ih (filed.putEntry entry)

theorem Filed.eraseKeys (filed : database.Filed) (keys : List (List α)) : Filed (database.eraseKeys keys) := by
  intro key payload present isPackage
  rw [KeyValue.get_eraseKeys] at present
  split at present
  · cases present
  · exact filed key payload present isPackage

theorem Filed.ensureLegacyInstalledStateImported (filed : database.Filed) (legacy : Option (List α)) :
    (database.ensureLegacyInstalledStateImported legacy).Filed := by
  unfold Database.ensureLegacyInstalledStateImported
  split
  · exact filed
  · cases legacy with
    | none => exact filed
    | some content => exact filed.foldl_putEntry.markInitialized

/-- What stands under a key of a named package of a system reads as its entry. -/
theorem Filed.reads (filed : database.Filed) {system name key payload : List α}
    (present : database.get key = some payload) (starts : installedStateNamePrefix system name <+: key)
    (inSystem : system ≠ []) (named : name ≠ []) :
    ∃ entry, deserializeInstalledEntry payload = some entry ∧ key = entryKey entry := by
  obtain ⟨entry, rfl, rfl⟩ := filed key payload present (isPackageKey_of_namePrefix starts)
  rw [entryKey, installedStateNamePrefix_starts_iff] at starts
  obtain ⟨rfl, rfl⟩ := starts
  exact ⟨completeEntry entry, deserialize_serialize named inSystem, rfl⟩

/-- The search returns an entry together with its key. -/
theorem Filed.findInstalledStateEntry (filed : database.Filed) {system name version key : List α}
    {entry : StoredEntry α} (inSystem : system ≠ []) (named : name ≠ [])
    (found : database.findInstalledStateEntry system name version = some (key, entry)) : key = entryKey entry := by
  have stored : ∀ other ∈ database.keysFrom (installedStateNamePrefix system name),
      ∃ entry, (database.get other).bind deserializeInstalledEntry = some entry ∧ other = entryKey entry := by
    intro other member
    obtain ⟨⟨payload, present⟩, starts⟩ :=
      (KeyValue.mem_keysFrom (installedStateNamePrefix_ne_nil system name)).mp member
    obtain ⟨entry, reads, same⟩ := filed.reads present starts inSystem named
    exact ⟨entry, by simp [present, reads], same⟩
  have readable : ∀ other ∈ database.keysFrom (installedStateNamePrefix system name),
      ∃ entry, (database.get other).bind deserializeInstalledEntry = some entry :=
    fun other member => (stored other member).imp fun _ both => both.1
  have paired := mem_zip_of_findInstalledStateEntry found
  obtain ⟨other, reads, same⟩ := stored key (List.of_mem_zip paired).1
  have equal : entry = other := Option.some.inj ((zip_loadEntriesForKeys readable _ paired).symm.trans reads)
  rw [equal]
  exact same

theorem Filed.rewrite (filed : database.Filed) {system name version key : List α} {entry changed : StoredEntry α}
    (inSystem : system ≠ []) (named : name ≠ [])
    (found : database.findInstalledStateEntry system name version = some (key, entry))
    (sameKey : entryKey changed = entryKey entry) :
    Filed (database.markInitialized.put key (serializeInstalledEntry changed)) :=
  filed.markInitialized.put fun _ =>
    ⟨changed, (filed.findInstalledStateEntry inSystem named found).trans sameKey.symm, rfl⟩

theorem Filed.removeInstalledState (filed : database.Filed) (system name version : List α) :
    (database.removeInstalledState system name version).Filed :=
  filed.markInitialized.eraseKeys _

theorem Filed.updateInstalledState (filed : database.Filed) (legacy : Option (List α)) (entry : HistoryEntry α) :
    (database.updateInstalledState legacy entry).Filed := by
  have ready := filed.ensureLegacyInstalledStateImported legacy
  simp only [Database.updateInstalledState]
  split
  · exact filed
  split
  · exact filed
  split
  · exact ready.removeInstalledState _ _ _
  · refine (Filed.markInitialized ?_).putEntry _
    split
    · exact ready.removeInstalledState _ _ _
    · exact ready

theorem Filed.replaceInstalledState (filed : database.Filed) (legacy : Option (List α))
    (system syncedAt : List α) (given : List (StoredEntry α)) :
    (database.replaceInstalledState legacy system syncedAt given).Filed :=
  ((filed.ensureLegacyInstalledStateImported legacy).markInitialized.eraseKeys _).foldl_putEntry

theorem Filed.mergeInstalledOwnership (filed : database.Filed) (legacy : Option (List α))
    (package : PackageName α) (ownerIds : List (List α)) (directRequest : Bool) :
    (database.mergeInstalledOwnership legacy package ownerIds directRequest).Filed := by
  have ready := filed.ensureLegacyInstalledStateImported legacy
  simp only [Database.mergeInstalledOwnership]
  split
  · exact filed
  · rename_i identified
    obtain ⟨inSystem, named⟩ : package.system ≠ [] ∧ package.name ≠ [] := by simpa using identified
    split
    · exact ready
    · rename_i key entry found
      exact ready.rewrite inSystem named found rfl

theorem Filed.subtractInstalledOwnership (filed : database.Filed) (legacy : Option (List α))
    (package : PackageName α) (ownerIds : List (List α)) :
    (database.subtractInstalledOwnership legacy package ownerIds).Filed := by
  have ready := filed.ensureLegacyInstalledStateImported legacy
  simp only [Database.subtractInstalledOwnership]
  split
  · exact filed
  · rename_i identified
    obtain ⟨inSystem, named⟩ : package.system ≠ [] ∧ package.name ≠ [] := by simpa using identified
    split
    · exact ready
    · rename_i key entry found
      exact ready.rewrite inSystem named found rfl

end Database

/-- The step lemma: no call misfiles an entry. -/
theorem Operation.apply_filed {database : Database α} (filed : database.Filed) (operation : Operation α) :
    (operation.apply database).Filed := by
  cases operation with
  | load legacy => exact filed.ensureLegacyInstalledStateImported legacy
  | update legacy entry => exact filed.updateInstalledState legacy entry
  | replace legacy system syncedAt given => exact filed.replaceInstalledState legacy system syncedAt given
  | merge legacy package ownerIds directRequest =>
      exact filed.mergeInstalledOwnership legacy package ownerIds directRequest
  | subtract legacy package ownerIds => exact filed.subtractInstalledOwnership legacy package ownerIds

/-- The run lemma. -/
theorem runOperations_filed (operations : List (Operation α)) : (runOperations operations).Filed := by
  induction operations using List.reverseRecOn with
  | nil =>
      intro key payload present
      simp [runOperations, KeyValue.get] at present
  | append_singleton operations operation ih =>
      rw [runOperations, List.foldl_append]
      exact Operation.apply_filed ih operation

end Filing

section Selection

variable {existing : List (StoredEntry α)} {candidate stored : StoredEntry α}

theorem installedStateIdentity_inj {left right : StoredEntry α} :
    installedStateIdentity left = installedStateIdentity right ↔
      left.name = right.name ∧ left.version = right.version := by
  rw [installedStateIdentity, installedStateIdentity,
    separated_inj (newline_not_mem_escape _) (newline_not_mem_escape _), escape_inj, escape_inj]

/-- The only entry of an identity is the one selected for it. -/
theorem select_of_unique (member : stored ∈ existing)
    (same : installedStateIdentity stored = installedStateIdentity candidate)
    (unique : ∀ entry ∈ existing, installedStateIdentity entry = installedStateIdentity candidate → entry = stored) :
    selectExistingEntryForReplace existing candidate = some stored := by
  have found : stored ∈ existing.filter fun entry =>
      decide (installedStateIdentity entry = installedStateIdentity candidate) := by
    simpa using And.intro member same
  have last := List.getLast?_eq_getLast_of_ne_nil (List.ne_nil_of_mem found)
  have kept := List.mem_filter.mp (List.getLast_mem (List.ne_nil_of_mem found))
  rw [selectExistingEntryForReplace, last, unique _ kept.1 (of_decide_eq_true kept.2)]

variable {earlier : List (StoredEntry α)} {system syncedAt syncedLater : List α} {given : StoredEntry α}

theorem replacedEntry_installMethod_ne_nil :
    (replacedEntry existing system syncedAt given).installMethod ≠ [] := by
  simp only [replacedEntry]
  split
  · split
    · exact installMethodFromOwners_ne_nil _
    · rename_i kept
      simpa using kept
  · rename_i own
    simp only [Bool.or_eq_true, not_or, List.isEmpty_iff] at own
    exact own.1

/-- What is written for a listed entry reads back as it was written. -/
theorem completeEntry_replacedEntry :
    completeEntry (replacedEntry existing system syncedAt given) = replacedEntry existing system syncedAt given := by
  have method : (replacedEntry existing system syncedAt given).installMethod.isEmpty = false := by
    simpa using replacedEntry_installMethod_ne_nil
  have owners : normalizeOwners (replacedEntry existing system syncedAt given).owners =
      (replacedEntry existing system syncedAt given).owners := normalizeOwners_idem _
  simp only [completeEntry, method, owners, Bool.false_eq_true, if_false]

/-- An entry that was replaced before is replaced by itself. -/
theorem replacedEntry_again
    (selected : selectExistingEntryForReplace existing { given with system := system } =
      some (replacedEntry earlier system syncedAt given)) :
    replacedEntry existing system syncedLater given = replacedEntry earlier system syncedAt given := by
  have named : (replacedEntry earlier system syncedAt given).installMethod.isEmpty = false := by
    simpa using replacedEntry_installMethod_ne_nil
  have owners : normalizeOwners (if given.owners.isEmpty then (replacedEntry earlier system syncedAt given).owners
      else given.owners) = (replacedEntry earlier system syncedAt given).owners := by
    split
    · exact normalizeOwners_idem _
    · rename_i listed
      simp [replacedEntry, listed]
  have installed : (if given.installedAt.isEmpty then (replacedEntry earlier system syncedAt given).installedAt
      else given.installedAt) = (replacedEntry earlier system syncedAt given).installedAt := by
    split
    · rfl
    · rename_i listed
      simp [replacedEntry, listed]
  have method : (if given.installMethod.isEmpty || decide (given.installMethod = text "unknown") then
      (replacedEntry earlier system syncedAt given).installMethod else given.installMethod) =
        (replacedEntry earlier system syncedAt given).installMethod := by
    split
    · rfl
    · rename_i listed
      simp only [replacedEntry, listed, Bool.false_eq_true, if_false]
  rw [replacedEntry]
  simp only [selected, Option.map_some, Option.getD_some, named, Bool.false_eq_true, if_false, owners, installed, method]
  rfl

end Selection

section Replacement

/-- The listed entry that is written last under a key. -/
def lastListed (system : List α) (given : List (StoredEntry α)) (key : List α) : Option (StoredEntry α) :=
  (given.filter fun entry => !entry.name.isEmpty).reverse.find? fun entry =>
    decide (installedStateKey system entry.name entry.version = key)

/-- The entries stored for a system. -/
def Database.existingEntries (database : Database α) (system : List α) : List (StoredEntry α) :=
  database.loadEntriesForKeys (database.keysFrom (installedStateSystemPrefix system))

variable {database ready : Database α} {legacy : Option (List α)} {system syncedAt key : List α}
  {given : List (StoredEntry α)}

theorem lastListed_eq_some {entry : StoredEntry α} (last : lastListed system given key = some entry) :
    entry ∈ given ∧ entry.name ≠ [] ∧ installedStateKey system entry.name entry.version = key := by
  have member := List.mem_filter.mp (List.mem_reverse.mp (List.mem_of_find?_eq_some last))
  exact ⟨member.1, by simpa using member.2, by simpa using List.find?_some last⟩

theorem lastListed_isSome (system : List α) {entry : StoredEntry α} (member : entry ∈ given) (named : entry.name ≠ []) :
    ∃ last, lastListed system given (installedStateKey system entry.name entry.version) = some last := by
  apply Option.isSome_iff_exists.mp
  rw [lastListed, List.find?_isSome]
  exact ⟨entry, by simpa using And.intro member named, by simp⟩

theorem existingKeys_iff :
    key ∈ database.keysFrom (installedStateSystemPrefix system) ↔
      (∃ payload, database.get key = some payload) ∧ installedStateSystemPrefix system <+: key :=
  KeyValue.mem_keysFrom (Database.installedStateSystemPrefix_ne_nil system)

/-- What stands under a key afterwards: what was listed for it, and outside the system
what was there before. -/
theorem get_replaceInstalledState (imported : database.ensureLegacyInstalledStateImported legacy = ready) :
    (database.replaceInstalledState legacy system syncedAt given).get key =
      ((lastListed system given key).map fun entry =>
        serializeInstalledEntry (replacedEntry (ready.existingEntries system) system syncedAt entry)).or
        (if installedStateSystemPrefix system <+: key then none else ready.markInitialized.get key) := by
  have erased : (ready.markInitialized.eraseKeys (ready.keysFrom (installedStateSystemPrefix system))).get key =
      if installedStateSystemPrefix system <+: key then none else ready.markInitialized.get key := by
    rw [KeyValue.get_eraseKeys]
    by_cases starts : installedStateSystemPrefix system <+: key
    · rw [if_pos starts]
      split
      · rfl
      · rename_i absent
        have package := Database.isPackageKey_of_systemPrefix starts
        have apart : key ≠ initializedKey := fun same => by
          rw [same, not_isPackageKey_initializedKey] at package
          cases package
        rw [Database.markInitialized, KeyValue.get_put, if_neg apart]
        cases present : ready.get key with
        | none => rfl
        | some payload => exact absurd (existingKeys_iff.2 ⟨⟨payload, present⟩, starts⟩) absent
    · rw [if_neg starts, if_neg fun member => starts (existingKeys_iff.1 member).2]
  unfold Database.replaceInstalledState
  simp only [imported]
  rw [List.foldl_map]
  refine (KeyValue.get_foldl_putBy _ _ _ _ _).trans ?_
  have last : (given.filter fun entry => !entry.name.isEmpty).reverse.find? (fun entry => decide (entryKey
      (replacedEntry (ready.existingEntries system) system syncedAt entry) = key)) = lastListed system given key := by
    congr!
  rw [erased, ← last]
  congr!

theorem lastListed_of_not_starts (apart : ¬ installedStateSystemPrefix system <+: key) :
    lastListed system given key = none := by
  cases last : lastListed system given key with
  | none => rfl
  | some entry =>
      obtain ⟨_, _, rfl⟩ := lastListed_eq_some last
      exact absurd (installedStateSystemPrefix_starts_iff.2 rfl) apart

theorem not_starts_initializedKey (system : List α) : ¬ installedStateSystemPrefix system <+: initializedKey :=
  fun starts => by
    have package := Database.isPackageKey_of_systemPrefix starts
    rw [not_isPackageKey_initializedKey] at package
    cases package

theorem initialized_replaced :
    (database.replaceInstalledState legacy system syncedAt given).get initializedKey = some (text "1") := by
  rw [get_replaceInstalledState rfl, lastListed_of_not_starts (not_starts_initializedKey system),
    if_neg (not_starts_initializedKey system), Database.markInitialized, KeyValue.get_put, if_pos rfl]
  rfl

/-- Nothing is imported any more. -/
theorem import_replaced (later : Option (List α)) :
    (database.replaceInstalledState legacy system syncedAt given).ensureLegacyInstalledStateImported later =
      database.replaceInstalledState legacy system syncedAt given := by
  unfold Database.ensureLegacyInstalledStateImported
  rw [if_pos (by rw [initialized_replaced]; rfl)]

theorem mem_existingEntries {entry : StoredEntry α} :
    entry ∈ database.existingEntries system ↔
      ∃ key payload, installedStateSystemPrefix system <+: key ∧ database.get key = some payload ∧
        deserializeInstalledEntry payload = some entry := by
  constructor
  · intro member
    obtain ⟨key, listed, payload, present, reads⟩ := Database.mem_loadEntriesForKeys member
    exact ⟨key, payload, (existingKeys_iff.1 listed).2, present, reads⟩
  · intro found
    obtain ⟨key, payload, starts, present, reads⟩ := found
    exact List.mem_filterMap.mpr ⟨key, existingKeys_iff.2 ⟨⟨payload, present⟩, starts⟩, by simp [present, reads]⟩

theorem deserialize_replaced {existing : List (StoredEntry α)} (inSystem : system ≠ []) {entry : StoredEntry α}
    (last : lastListed system given key = some entry) :
    deserializeInstalledEntry (serializeInstalledEntry (replacedEntry existing system syncedAt entry)) =
      some (replacedEntry existing system syncedAt entry) := by
  have named : (replacedEntry existing system syncedAt entry).name ≠ [] := (lastListed_eq_some last).2.1
  rw [deserialize_serialize named inSystem, completeEntry_replacedEntry]

section Again

variable (imported : database.ensureLegacyInstalledStateImported legacy = ready) (inSystem : system ≠ [])
include imported

/-- What stands under a key of the system. -/
theorem get_replaced (starts : installedStateSystemPrefix system <+: key) :
    (database.replaceInstalledState legacy system syncedAt given).get key =
      (lastListed system given key).map fun entry =>
        serializeInstalledEntry (replacedEntry (ready.existingEntries system) system syncedAt entry) := by
  rw [get_replaceInstalledState imported, if_pos starts, Option.or_none]

include inSystem

/-- The entries of the system are the ones listed last. -/
theorem mem_existingEntries_replaced {entry : StoredEntry α} :
    entry ∈ (database.replaceInstalledState legacy system syncedAt given).existingEntries system ↔
      ∃ key listed, lastListed system given key = some listed ∧
        entry = replacedEntry (ready.existingEntries system) system syncedAt listed := by
  rw [mem_existingEntries]
  constructor
  · intro found
    obtain ⟨key, payload, starts, present, reads⟩ := found
    rw [get_replaced imported starts, Option.map_eq_some_iff] at present
    obtain ⟨listed, last, rfl⟩ := present
    rw [deserialize_replaced inSystem last] at reads
    exact ⟨key, listed, last, (Option.some.inj reads).symm⟩
  · intro found
    obtain ⟨key, listed, last, rfl⟩ := found
    have starts : installedStateSystemPrefix system <+: key := by
      rw [← (lastListed_eq_some last).2.2, installedStateSystemPrefix_starts_iff]
    refine ⟨key, _, starts, ?_, deserialize_replaced inSystem last⟩
    rw [get_replaced imported starts, last]
    rfl

/-- The second call finds what the first one wrote. -/
theorem selected_replaced {listed : StoredEntry α} (last : lastListed system given key = some listed) :
    selectExistingEntryForReplace
        ((database.replaceInstalledState legacy system syncedAt given).existingEntries system)
        { listed with system := system } =
      some (replacedEntry (ready.existingEntries system) system syncedAt listed) := by
  apply select_of_unique
  · exact (mem_existingEntries_replaced imported inSystem).2 ⟨key, listed, last, rfl⟩
  · rfl
  · intro entry member same
    obtain ⟨other, otherListed, otherLast, rfl⟩ := (mem_existingEntries_replaced imported inSystem).1 member
    obtain ⟨names, versions⟩ := installedStateIdentity_inj.1 same
    have sameKey : other = key := by
      rw [← (lastListed_eq_some otherLast).2.2, ← (lastListed_eq_some last).2.2]
      exact congrArg₂ (installedStateKey system) names versions
    rw [sameKey, last] at otherLast
    rw [Option.some.inj otherLast]

/-- Listing the same again changes nothing, at whatever time. -/
theorem replaceInstalledState_again (later : Option (List α)) (syncedLater : List α) :
    (database.replaceInstalledState legacy system syncedAt given).replaceInstalledState later system syncedLater
      given = database.replaceInstalledState legacy system syncedAt given := by
  apply KeyValue.ext_get
  intro key
  by_cases starts : installedStateSystemPrefix system <+: key
  · rw [get_replaced (import_replaced later) starts, get_replaced imported starts]
    cases last : lastListed system given key with
    | none => rfl
    | some listed =>
        simp only [Option.map_some, Option.some.injEq]
        rw [replacedEntry_again (selected_replaced imported inSystem last)]
  · rw [get_replaceInstalledState (import_replaced later), if_neg starts, lastListed_of_not_starts starts,
      Option.map_none, Option.none_or, Database.markInitialized, KeyValue.get_put]
    split
    · rename_i initialized
      rw [initialized, initialized_replaced]
    · rfl

end Again

section Entries

/-- An entry is loaded from under its key. -/
theorem loaded_filed (filed : database.Filed) {pair : List α × List α} {entry : StoredEntry α}
    (stored : pair ∈ database.entries)
    (read : (if isPackageKey pair.1 then deserializeInstalledEntry pair.2 else none) = some entry) :
    pair.1 = entryKey entry ∧ deserializeInstalledEntry pair.2 = some entry := by
  rw [Option.ite_none_right_eq_some] at read
  obtain ⟨package, reads⟩ := read
  refine ⟨?_, reads⟩
  obtain ⟨written, same, payload⟩ := filed pair.1 pair.2 (KeyValue.get_eq_some.mpr stored) package
  rw [payload, deserialize_serialize_eq, Option.ite_none_left_eq_some] at reads
  rw [same, ← Option.some.inj reads.2]
  rfl

theorem mem_loadInstalledState (filed : database.Filed) {entry : StoredEntry α} :
    entry ∈ (database.loadInstalledState legacy).1 ↔
      ∃ payload, (database.ensureLegacyInstalledStateImported legacy).get (entryKey entry) = some payload ∧
        deserializeInstalledEntry payload = some entry := by
  have ready := filed.ensureLegacyInstalledStateImported legacy
  simp only [Database.loadInstalledState, List.mem_filterMap]
  constructor
  · intro loaded
    obtain ⟨pair, stored, read⟩ := loaded
    obtain ⟨same, reads⟩ := loaded_filed ready stored read
    exact ⟨pair.2, by rw [← same]; exact KeyValue.get_eq_some.mpr stored, reads⟩
  · intro found
    obtain ⟨payload, present, reads⟩ := found
    have package : (text "pkg:").isPrefixOf (entryKey entry) = true := isPackageKey_entryKey entry
    exact ⟨(entryKey entry, payload), KeyValue.get_eq_some.mp present, by rw [if_pos package, reads]⟩

/-- No two entries are loaded from one key. -/
theorem loadInstalledState_nodup (filed : database.Filed) :
    ((database.loadInstalledState legacy).1.map fun entry => (entry.system, entry.name, entry.version)).Nodup := by
  have ready := filed.ensureLegacyInstalledStateImported legacy
  rw [List.Nodup, List.pairwise_map]
  have ordered := List.Pairwise.and_mem.mp (database.ensureLegacyInstalledStateImported legacy).sorted
  refine List.Pairwise.filterMap _ (fun left right before first firstRead second secondRead same => ?_) ordered
  have firstKey := (loaded_filed ready before.1 firstRead).1
  have secondKey := (loaded_filed ready before.2.1 secondRead).1
  have equal : entryKey first = entryKey second := by
    rw [entryKey_inj]
    simpa using same
  exact absurd (firstKey.trans (equal.trans secondKey.symm)) before.2.2.ne

theorem existingEntries_filed (filed : database.Filed) {entry : StoredEntry α}
    (member : entry ∈ database.existingEntries system) :
    entry.system = system ∧ ∃ payload, database.get (entryKey entry) = some payload ∧
      deserializeInstalledEntry payload = some entry := by
  obtain ⟨key, payload, starts, present, reads⟩ := mem_existingEntries.1 member
  have same : key = entryKey entry :=
    (loaded_filed filed (KeyValue.get_eq_some.mp present)
      (by rw [if_pos (Database.isPackageKey_of_systemPrefix starts), reads])).1
  subst same
  exact ⟨(installedStateSystemPrefix_starts_iff.1 starts).symm, payload, present, reads⟩

/-- The stored entry of the identity is the one a listed entry is compared with. -/
theorem selected_stored (filed : ready.Filed) {stored listed : StoredEntry α} {payload : List α}
    (present : ready.get (entryKey stored) = some payload)
    (reads : deserializeInstalledEntry payload = some stored)
    (same : listed.name = stored.name ∧ listed.version = stored.version) :
    selectExistingEntryForReplace (ready.existingEntries stored.system) { listed with system := stored.system } =
      some stored := by
  apply select_of_unique
  · exact mem_existingEntries.2
      ⟨entryKey stored, payload, installedStateSystemPrefix_starts_iff.2 rfl, present, reads⟩
  · exact installedStateIdentity_inj.2 ⟨same.1.symm, same.2.symm⟩
  · intro other member identity
    obtain ⟨inSystem, found, otherPresent, otherReads⟩ := existingEntries_filed filed member
    obtain ⟨names, versions⟩ := installedStateIdentity_inj.1 identity
    have sameKey : entryKey other = entryKey stored :=
      entryKey_inj.2 ⟨inSystem, names.trans same.1, versions.trans same.2⟩
    rw [sameKey, present, Option.some.injEq] at otherPresent
    rw [← otherPresent, reads] at otherReads
    exact (Option.some.inj otherReads).symm

theorem replacedEntry_of_selected (syncedAt : List α) {existing : List (StoredEntry α)} {stored listed : StoredEntry α}
    (selected : selectExistingEntryForReplace existing { listed with system := system } = some stored)
    (settled : normalizeOwners stored.owners = stored.owners) :
    (replacedEntry existing system syncedAt listed).owners =
        (if listed.owners = [] then stored.owners else normalizeOwners listed.owners) ∧
      (replacedEntry existing system syncedAt listed).installedAt =
        (if listed.installedAt = [] then stored.installedAt else listed.installedAt) := by
  simp only [replacedEntry, selected, Option.map_some, Option.getD_some, List.isEmpty_iff, and_true]
  split
  · exact settled
  · rfl

end Entries

/-- What replacing the entries of a system leaves of the entries before. -/
structure Replaced (system : List α) (given before after : List (StoredEntry α)) : Prop where
  listed : ∀ name version,
    (∃ entry ∈ after, entry.system = system ∧ entry.name = name ∧ entry.version = version) ↔
      name ≠ [] ∧ ∃ entry ∈ given, entry.name = name ∧ entry.version = version
  once : (after.map fun entry => (entry.system, entry.name, entry.version)).Nodup
  others : ∀ entry, entry.system ≠ system → (entry ∈ after ↔ entry ∈ before)
  kept : ∀ stored ∈ before, stored.system = system → ∀ entry ∈ after, entry.system = system →
    entry.name = stored.name → entry.version = stored.version →
    ∃ listed ∈ given, listed.name = stored.name ∧ listed.version = stored.version ∧
      entry.owners = (if listed.owners = [] then stored.owners else normalizeOwners listed.owners) ∧
      entry.installedAt = (if listed.installedAt = [] then stored.installedAt else listed.installedAt)

section Exactness

variable (filed : database.Filed) (inSystem : system ≠ [])
include filed

theorem replaced_others {entry : StoredEntry α} (read : Option (List α)) (apart : entry.system ≠ system) :
    entry ∈ ((database.replaceInstalledState legacy system syncedAt given).loadInstalledState read).1 ↔
      entry ∈ (database.loadInstalledState legacy).1 := by
  have outside : ¬ installedStateSystemPrefix system <+: entryKey entry := fun starts =>
    apart (installedStateSystemPrefix_starts_iff.1 starts).symm
  have notMarker : entryKey entry ≠ initializedKey := fun same => by
    have package := isPackageKey_entryKey entry
    rw [same, not_isPackageKey_initializedKey] at package
    cases package
  rw [mem_loadInstalledState (filed.replaceInstalledState legacy system syncedAt given), import_replaced,
    mem_loadInstalledState filed, get_replaceInstalledState rfl, lastListed_of_not_starts outside, if_neg outside,
    Database.markInitialized, KeyValue.get_put, if_neg notMarker]
  rfl

include inSystem

/-- What is loaded for the system is what was listed last. -/
theorem mem_loaded_replaced {entry : StoredEntry α} {read : Option (List α)} (same : entry.system = system) :
    entry ∈ ((database.replaceInstalledState legacy system syncedAt given).loadInstalledState read).1 ↔
      ∃ listed, lastListed system given (entryKey entry) = some listed ∧
        entry = replacedEntry ((database.ensureLegacyInstalledStateImported legacy).existingEntries system) system
          syncedAt listed := by
  have starts : installedStateSystemPrefix system <+: entryKey entry :=
    installedStateSystemPrefix_starts_iff.2 same.symm
  rw [mem_loadInstalledState (filed.replaceInstalledState legacy system syncedAt given), import_replaced,
    get_replaced rfl starts]
  constructor
  · intro found
    obtain ⟨payload, present, reads⟩ := found
    obtain ⟨listed, last, rfl⟩ := Option.map_eq_some_iff.mp present
    rw [deserialize_replaced inSystem last] at reads
    exact ⟨listed, last, (Option.some.inj reads).symm⟩
  · intro found
    obtain ⟨listed, last, written⟩ := found
    refine ⟨_, Option.map_eq_some_iff.mpr ⟨listed, last, rfl⟩, ?_⟩
    rw [deserialize_replaced inSystem last, ← written]

theorem replaced_listed (name version : List α) (read : Option (List α)) :
    (∃ entry ∈ ((database.replaceInstalledState legacy system syncedAt given).loadInstalledState read).1,
      entry.system = system ∧ entry.name = name ∧ entry.version = version) ↔
      name ≠ [] ∧ ∃ entry ∈ given, entry.name = name ∧ entry.version = version := by
  constructor
  · intro found
    obtain ⟨entry, member, same, rfl, rfl⟩ := found
    obtain ⟨listed, last, written⟩ := (mem_loaded_replaced filed inSystem same).1 member
    obtain ⟨inList, named, -⟩ := lastListed_eq_some last
    rw [written]
    exact ⟨named, listed, inList, rfl, rfl⟩
  · intro found
    obtain ⟨named, entry, member, rfl, rfl⟩ := found
    obtain ⟨listed, last⟩ := lastListed_isSome system member named
    obtain ⟨_, _, sameKey⟩ := lastListed_eq_some last
    obtain ⟨_, names, versions⟩ := installedStateKey_inj.1 sameKey
    refine ⟨replacedEntry ((database.ensureLegacyInstalledStateImported legacy).existingEntries system) system
      syncedAt listed, (mem_loaded_replaced filed inSystem rfl).2 ⟨listed, ?_, rfl⟩, rfl, names, versions⟩
    rw [show entryKey _ = installedStateKey system listed.name listed.version from rfl, sameKey, last]

theorem replaced_kept {stored entry : StoredEntry α} {read : Option (List α)}
    (before : stored ∈ (database.loadInstalledState legacy).1) (storedSystem : stored.system = system)
    (after : entry ∈ ((database.replaceInstalledState legacy system syncedAt given).loadInstalledState read).1)
    (entrySystem : entry.system = system) (names : entry.name = stored.name) (versions : entry.version = stored.version) :
    ∃ listed ∈ given, listed.name = stored.name ∧ listed.version = stored.version ∧
      entry.owners = (if listed.owners = [] then stored.owners else normalizeOwners listed.owners) ∧
      entry.installedAt = (if listed.installedAt = [] then stored.installedAt else listed.installedAt) := by
  obtain ⟨payload, present, reads⟩ := (mem_loadInstalledState filed).1 before
  obtain ⟨listed, last, written⟩ := (mem_loaded_replaced filed inSystem entrySystem).1 after
  obtain ⟨member, _, sameKey⟩ := lastListed_eq_some last
  obtain ⟨_, listedName, listedVersion⟩ := installedStateKey_inj.1 sameKey
  have same : listed.name = stored.name ∧ listed.version = stored.version :=
    ⟨listedName.trans names, listedVersion.trans versions⟩
  have selected := selected_stored (filed.ensureLegacyInstalledStateImported legacy) present reads same
  rw [storedSystem] at selected
  obtain ⟨sorted, ownersNamed, _⟩ := deserialize_owners reads
  have fields := replacedEntry_of_selected syncedAt selected (normalizeOwners_of_sorted sorted ownersNamed)
  rw [← written] at fields
  exact ⟨listed, member, same.1, same.2, fields⟩

end Exactness

/-- A list that brings its own time for an installed package. -/
def timedPackage : StoredEntry UInt8 :=
  { name := oddPackage.name, version := oddPackage.version, installedAt := text "u" }

end Replacement

end ReqPack.Storage
