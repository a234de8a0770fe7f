import Mathlib.Data.List.Induction
import ReqPack.Storage.InstalledDatabase

/-! # What the database of installed packages always satisfies

Each operation rewrites keys and payloads in its own way.  All of them keep every
package key next to a payload that reads back as the entry of that key, with its
owners in order and with the method the owners call for.
-/

namespace ReqPack.Storage

open ReqPack.Data
open ReqPack.Data.Octets

variable {α : Type} [Alphabet α]

/-- A payload that fits its key. -/
structure WellStored (key payload : List α) (entry : StoredEntry α) : Prop where
  reads : deserializeInstalledEntry payload = some entry
  filed : key = installedStateKey entry.system entry.name entry.version
  sorted : entry.owners.Pairwise (· < ·)
  named : [] ∉ entry.owners
  method : entry.installMethod = installMethodFromOwners entry.owners

def isPackageKey (key : List α) : Bool := (text "pkg:").isPrefixOf key

/-- Every package key stands next to a payload that fits it. -/
def Database.Consistent (database : Database α) : Prop :=
  ∀ key payload, database.get key = some payload → isPackageKey key = true →
    ∃ entry, WellStored key payload entry

/-- The method of the entry is empty or the one its owners call for. -/
def MethodFits (entry : StoredEntry α) : Prop :=
  entry.installMethod = [] ∨ entry.installMethod = installMethodFromOwners (normalizeOwners entry.owners)

section Writing

theorem wellStored_serialize {entry : StoredEntry α} (named : entry.name ≠ []) (filed : entry.system ≠ [])
    (fits : MethodFits entry) :
    WellStored (installedStateKey entry.system entry.name entry.version) (serializeInstalledEntry entry)
      (completeEntry entry) where
  reads := deserialize_serialize named filed
  filed := rfl
  sorted := normalizeOwners_sorted _
  named := by simp [completeEntry]
  method := by
    simp only [completeEntry]
    rcases fits with empty | same
    · simp [empty]
    · simp [same, installMethodFromOwners_ne_nil]

theorem not_isPackageKey_initializedKey : isPackageKey (initializedKey : List α) = false := by
  have apart : (Alphabet.symbol 'p' : α) ≠ Alphabet.symbol 'm' := symbol_ne (by decide) (by decide) (by decide)
  rw [isPackageKey, Bool.eq_false_iff, Ne, List.isPrefixOf_iff_prefix]
  simp [initializedKey, text, List.cons_prefix_cons, apart]

namespace Database

theorem Consistent.put {database : Database α} (consistent : database.Consistent) {key payload : List α}
    (fits : isPackageKey key = true → ∃ entry, WellStored key payload entry) :
    Consistent (database.put key payload) := by
  intro other found present isPackage
  rw [KeyValue.get_put] at present
  by_cases same : other = key
  · subst other
    rw [if_pos rfl, Option.some.injEq] at present
    exact present ▸ fits isPackage
  · rw [if_neg same] at present
    exact consistent other found present isPackage

theorem Consistent.markInitialized {database : Database α} (consistent : database.Consistent) :
    database.markInitialized.Consistent :=
  consistent.put (by simp [not_isPackageKey_initializedKey])

theorem Consistent.putEntry {database : Database α} (consistent : database.Consistent)
    {entry : StoredEntry α} (named : entry.name ≠ []) (filed : entry.system ≠ []) (fits : MethodFits entry) :
    (database.putEntry entry).Consistent :=
  consistent.put fun _ => ⟨_, wellStored_serialize named filed fits⟩

theorem Consistent.foldl_putEntry {entries : List (StoredEntry α)} {database : Database α}
    (consistent : database.Consistent)
    (fit : ∀ entry ∈ entries, entry.name ≠ [] ∧ entry.system ≠ [] ∧ MethodFits entry) :
    (entries.foldl Database.putEntry database).Consistent := by
  induction entries generalizing database with
  | nil => exact consistent
  | cons entry entries ih =>
      obtain ⟨named, filed, fits⟩ := fit entry List.mem_cons_self
      exact ih (consistent.putEntry named filed fits)
        fun later member => fit later (List.mem_cons_of_mem _ member)

theorem Consistent.eraseKeys {database : Database α} (consistent : database.Consistent)
    (keys : List (List α)) : Consistent (database.eraseKeys keys) := by
  intro key payload present isPackage
  rw [KeyValue.get_eraseKeys] at present
  split at present
  · cases present
  · exact consistent key payload present isPackage

theorem Consistent.ensureLegacyInstalledStateImported {database : Database α}
    (consistent : database.Consistent) (legacy : Option (List α)) :
    (database.ensureLegacyInstalledStateImported legacy).Consistent := by
  unfold Database.ensureLegacyInstalledStateImported
  split
  · exact consistent
  · cases legacy with
    | none => exact consistent
    | some content =>
        refine (consistent.foldl_putEntry fun entry member => ?_).markInitialized
        obtain ⟨listed, present⟩ := List.mem_filter.mp member
        obtain ⟨line, _, rfl⟩ := List.mem_map.mp listed
        simp only [Bool.and_eq_true, Bool.not_eq_true', List.isEmpty_eq_false_iff] at present
        exact ⟨present.1, present.2, Or.inl rfl⟩

end Database

end Writing

section Reading

namespace Database

variable {database : Database α}

/-- Where every key has an entry, keys and entries match position by position. -/
theorem zip_loadEntriesForKeys {keys : List (List α)}
    (readable : ∀ key ∈ keys, ∃ entry, (database.get key).bind deserializeInstalledEntry = some entry) :
    ∀ found ∈ keys.zip (database.loadEntriesForKeys keys),
      (database.get found.1).bind deserializeInstalledEntry = some found.2 := by
  induction keys with
  | nil => simp [loadEntriesForKeys]
  | cons key keys ih =>
      obtain ⟨entry, read⟩ := readable key List.mem_cons_self
      have aligned := ih fun later member => readable later (List.mem_cons_of_mem _ member)
      have split : database.loadEntriesForKeys (key :: keys) = entry :: database.loadEntriesForKeys keys := by
        simp [loadEntriesForKeys, read]
      rw [split]
      intro found member
      rcases List.mem_cons.mp member with rfl | later
      · exact read
      · exact aligned found later

theorem installedStateNamePrefix_ne_nil (system name : List α) : installedStateNamePrefix system name ≠ [] := by
  simp [installedStateNamePrefix, installedStateSystemPrefix]

theorem installedStateSystemPrefix_ne_nil (system : List α) : installedStateSystemPrefix system ≠ [] := by
  simp [installedStateSystemPrefix]

theorem isPackageKey_of_systemPrefix {system key : List α} (starts : installedStateSystemPrefix system <+: key) :
    isPackageKey key = true :=
  List.isPrefixOf_iff_prefix.mpr ((List.prefix_append _ _).trans starts)

theorem isPackageKey_of_namePrefix {system name key : List α}
    (starts : installedStateNamePrefix system name <+: key) : isPackageKey key = true :=
  isPackageKey_of_systemPrefix ((List.prefix_append _ _).trans starts)

/-- The search returns a key and the entry at the same position. -/
theorem mem_zip_of_findInstalledStateEntry {system name version key : List α} {entry : StoredEntry α}
    (found : database.findInstalledStateEntry system name version = some (key, entry)) :
    (key, entry) ∈ (database.keysFrom (installedStateNamePrefix system name)).zip
      (database.loadEntriesForKeys (database.keysFrom (installedStateNamePrefix system name))) := by
  unfold Database.findInstalledStateEntry at found
  simp only at found
  split at found
  · rename_i pair chosen
    cases found
    split at chosen
    · cases chosen
    · exact List.mem_of_find?_eq_some chosen
  · split at found
    · rename_i first rest only keys entries
      cases found
      rw [entries, keys]
      simp
    · cases found

/-- The search returns an entry together with the key it is filed under. -/
theorem Consistent.findInstalledStateEntry (consistent : database.Consistent)
    {system name version key : List α} {entry : StoredEntry α}
    (found : database.findInstalledStateEntry system name version = some (key, entry)) :
    ∃ payload, database.get key = some payload ∧ WellStored key payload entry := by
  have stored : ∀ other, other ∈ database.keysFrom (installedStateNamePrefix system name) →
      ∃ payload entry, database.get other = some payload ∧ WellStored other payload entry := by
    intro other member
    obtain ⟨⟨payload, present⟩, starts⟩ :=
      (KeyValue.mem_keysFrom (installedStateNamePrefix_ne_nil system name)).mp member
    obtain ⟨entry, fits⟩ := consistent other payload present (isPackageKey_of_namePrefix starts)
    exact ⟨payload, entry, present, fits⟩
  have readable : ∀ other ∈ database.keysFrom (installedStateNamePrefix system name),
      ∃ entry, (database.get other).bind deserializeInstalledEntry = some entry := by
    intro other member
    obtain ⟨payload, entry, present, fits⟩ := stored other member
    exact ⟨entry, by simp [present, fits.reads]⟩
  have aligned := zip_loadEntriesForKeys readable
  have paired := mem_zip_of_findInstalledStateEntry found
  obtain ⟨payload, other, present, fits⟩ := stored key (List.of_mem_zip paired).1
  have same := aligned _ paired
  simp only [present, Option.bind_some, fits.reads, Option.some.injEq] at same
  exact ⟨payload, present, same ▸ fits⟩

theorem mem_loadEntriesForKeys {keys : List (List α)} {entry : StoredEntry α}
    (member : entry ∈ database.loadEntriesForKeys keys) :
    ∃ key ∈ keys, ∃ payload, database.get key = some payload ∧
      deserializeInstalledEntry payload = some entry := by
  obtain ⟨key, listed, read⟩ := List.mem_filterMap.mp member
  obtain ⟨payload, present, reads⟩ := Option.bind_eq_some_iff.mp read
  exact ⟨key, listed, payload, present, reads⟩

/-- Scanning for a system finds its keys and no others. -/
theorem Consistent.mem_keysFrom_system (consistent : database.Consistent) {system key : List α} :
    key ∈ database.keysFrom (installedStateSystemPrefix system) ↔
      ∃ payload entry, database.get key = some payload ∧ WellStored key payload entry ∧
        entry.system = system := by
  rw [KeyValue.mem_keysFrom (installedStateSystemPrefix_ne_nil system)]
  constructor
  · intro found
    obtain ⟨⟨payload, present⟩, starts⟩ := found
    obtain ⟨entry, fits⟩ := consistent key payload present (isPackageKey_of_systemPrefix starts)
    rw [fits.filed, installedStateSystemPrefix_starts_iff] at starts
    exact ⟨payload, entry, present, fits, starts.symm⟩
  · intro found
    obtain ⟨payload, entry, present, fits, rfl⟩ := found
    refine ⟨⟨payload, present⟩, ?_⟩
    rw [fits.filed, installedStateSystemPrefix_starts_iff]

/-- Scanning for a system and a name finds their keys and no others. -/
theorem Consistent.mem_keysFrom_name (consistent : database.Consistent) {system name key : List α} :
    key ∈ database.keysFrom (installedStateNamePrefix system name) ↔
      ∃ payload entry, database.get key = some payload ∧ WellStored key payload entry ∧
        entry.system = system ∧ entry.name = name := by
  rw [KeyValue.mem_keysFrom (installedStateNamePrefix_ne_nil system name)]
  constructor
  · intro found
    obtain ⟨⟨payload, present⟩, starts⟩ := found
    obtain ⟨entry, fits⟩ := consistent key payload present (isPackageKey_of_namePrefix starts)
    rw [fits.filed, installedStateNamePrefix_starts_iff] at starts
    exact ⟨payload, entry, present, fits, starts.1.symm, starts.2.symm⟩
  · intro found
    obtain ⟨payload, entry, present, fits, rfl, rfl⟩ := found
    refine ⟨⟨payload, present⟩, ?_⟩
    rw [fits.filed, installedStateNamePrefix_starts_iff]
    exact ⟨rfl, rfl⟩

end Database

end Reading

section Operations

/-- `installed_root_owner_id`. -/
def rootOwnerId (package : PackageName α) : List α :=
  text "root" ++ newlineSymbol :: (package.system ++ newlineSymbol :: package.name)

/-- A call of the history manager; `legacy` is the content of the old file at that time. -/
inductive Operation (α : Type) where
  | load (legacy : Option (List α))
  | update (legacy : Option (List α)) (entry : HistoryEntry α)
  | replace (legacy : Option (List α)) (system syncedAt : List α) (given : List (StoredEntry α))
  | merge (legacy : Option (List α)) (package : PackageName α) (ownerIds : List (List α))
      (directRequest : Bool)
  | subtract (legacy : Option (List α)) (package : PackageName α) (ownerIds : List (List α))

def Operation.apply (database : Database α) : Operation α → Database α
  | .load legacy => (database.loadInstalledState legacy).2
  | .update legacy entry => database.updateInstalledState legacy entry
  | .replace legacy system syncedAt given => database.replaceInstalledState legacy system syncedAt given
  | .merge legacy package ownerIds directRequest =>
      database.mergeInstalledOwnership legacy package ownerIds directRequest
  | .subtract legacy package ownerIds => database.subtractInstalledOwnership legacy package ownerIds

/-- Systems and names are not empty, and a direct request brings its root owner. -/
def Operation.Named : Operation α → Prop
  | .load _ => True
  | .update _ entry => entry.system ≠ [] ∧ entry.packageName ≠ []
  | .replace _ system _ given => system ≠ [] ∧ ∀ entry ∈ given, entry.name ≠ []
  | .merge _ package ownerIds directRequest =>
      package.system ≠ [] ∧ package.name ≠ [] ∧ (directRequest = true → rootOwnerId package ∈ ownerIds)
  | .subtract _ package _ => package.system ≠ [] ∧ package.name ≠ []

/-- A listed entry leaves owners and method to the database, or brings both and they fit. -/
def Settled (given : StoredEntry α) : Prop :=
  (given.owners = [] ∧ (given.installMethod = [] ∨ given.installMethod = text "unknown")) ∨
    (given.owners ≠ [] ∧ given.installMethod ≠ text "unknown" ∧
      given.installMethod = installMethodFromOwners (normalizeOwners given.owners))

def Operation.ListsSettled : Operation α → Prop
  | .replace _ _ _ given => ∀ entry ∈ given, Settled entry
  | _ => True

theorem selectExistingEntryForReplace_mem {existing : List (StoredEntry α)} {candidate entry : StoredEntry α}
    (found : selectExistingEntryForReplace existing candidate = some entry) : entry ∈ existing := by
  unfold selectExistingEntryForReplace at found
  split at found
  · rename_i last chosen
    cases found
    exact (List.mem_filter.mp (List.mem_of_getLast? chosen)).1
  · split at found
    · rename_i only sameName
      cases found
      exact (List.mem_filter.mp (sameName ▸ List.mem_singleton_self entry)).1
    · cases found

/-- A refreshed entry keeps a method that fits the owners it keeps. -/
theorem replacedEntry_fits {existing : List (StoredEntry α)}
    (fit : ∀ entry ∈ existing, entry.owners.Pairwise (· < ·) ∧ [] ∉ entry.owners ∧
      entry.installMethod = installMethodFromOwners entry.owners)
    (system syncedAt : List α) {given : StoredEntry α} (settled : Settled given) :
    MethodFits (replacedEntry existing system syncedAt given) := by
  obtain ⟨name, version, _, installedAt, installMethod, owners⟩ := given
  simp only [Settled] at settled
  right
  rcases settled with ⟨rfl, unsettled⟩ | ⟨owned, known, fits⟩
  · have lookedUp : (installMethod.isEmpty || decide (installMethod = text "unknown")) = true := by
      simpa using unsettled
    cases found : selectExistingEntryForReplace existing
        { name := name, version := version, system := system, installedAt := installedAt,
          installMethod := installMethod } with
    | none => simp [replacedEntry, found, lookedUp, normalizeOwners_idem]
    | some entry =>
        obtain ⟨sorted, named, method⟩ := fit entry (selectExistingEntryForReplace_mem found)
        have kept := normalizeOwners_of_sorted sorted named
        simp [replacedEntry, found, lookedUp, kept, method, installMethodFromOwners_ne_nil]
  · have brought : installMethod ≠ [] := by
      rw [fits]
      exact installMethodFromOwners_ne_nil _
    simpa [replacedEntry, owned, brought, known, normalizeOwners_idem] using fits

theorem mergedEntry_fits {package : PackageName α} {ownerIds : List (List α)} {directRequest : Bool}
    (rooted : directRequest = true → rootOwnerId package ∈ ownerIds) (entry : StoredEntry α) :
    MethodFits (mergedEntry entry ownerIds directRequest) := by
  right
  simp only [mergedEntry, normalizeOwners_idem]
  cases directRequest with
  | false => simp
  | true =>
      -- the root owner keeps the method from being unknown
      have owner : rootOwnerId package ∈ normalizeOwners (entry.owners ++ ownerIds) :=
        mem_normalizeOwners.2 ⟨List.mem_append_right _ (rooted rfl), by simp [rootOwnerId]⟩
      have explicit : (normalizeOwners (entry.owners ++ ownerIds)).any
          (fun owner => ownerHasPrefix owner "root") = true := by
        rw [List.any_eq_true]
        exact ⟨_, owner, List.isPrefixOf_iff_prefix.mpr ⟨package.system ++ newlineSymbol :: package.name, by
          simp [rootOwnerId]⟩⟩
      have known : installMethodFromOwners (normalizeOwners (entry.owners ++ ownerIds)) ≠ text "unknown" := by
        simp only [installMethodFromOwners, explicit, Bool.true_and, if_true]
        split <;> simp (disch := decide) [text_eq_text]
      simp [known]

theorem subtractedEntry_fits (entry : StoredEntry α) (ownerIds : List (List α)) :
    MethodFits (subtractedEntry entry ownerIds) := by
  right
  simp [subtractedEntry, normalizeOwners_idem]

namespace Database

variable {database : Database α}

theorem Consistent.existing (consistent : database.Consistent) {system : List α} {entry : StoredEntry α}
    (member : entry ∈ database.loadEntriesForKeys (database.keysFrom (installedStateSystemPrefix system))) :
    entry.owners.Pairwise (· < ·) ∧ [] ∉ entry.owners ∧
      entry.installMethod = installMethodFromOwners entry.owners := by
  obtain ⟨key, listed, payload, present, reads⟩ := mem_loadEntriesForKeys member
  obtain ⟨other, found, stored, fits, _⟩ := consistent.mem_keysFrom_system.1 listed
  have same : payload = other := by
    rw [present, Option.some.injEq] at stored
    exact stored
  subst other
  have equal : entry = found := Option.some.inj (reads.symm.trans fits.reads)
  subst equal
  exact ⟨fits.sorted, fits.named, fits.method⟩

/-- Rewriting a found entry without touching its name keeps the database consistent. -/
theorem Consistent.rewrite (consistent : database.Consistent) {system name version key : List α}
    {entry changed : StoredEntry α}
    (found : database.findInstalledStateEntry system name version = some (key, entry))
    (sameKey : changed.system = entry.system ∧ changed.name = entry.name ∧ changed.version = entry.version)
    (fits : MethodFits changed) :
    Consistent (database.markInitialized.put key (serializeInstalledEntry changed)) := by
  obtain ⟨payload, present, stored⟩ := consistent.findInstalledStateEntry found
  obtain ⟨_, _, named, filed⟩ := deserialize_owners stored.reads
  refine consistent.markInitialized.put fun _ => ⟨completeEntry changed, ?_⟩
  rw [stored.filed, ← sameKey.1, ← sameKey.2.1, ← sameKey.2.2]
  exact wellStored_serialize (sameKey.2.1 ▸ named) (sameKey.1 ▸ filed) fits

theorem Consistent.removeInstalledState (consistent : database.Consistent) (system name version : List α) :
    (database.removeInstalledState system name version).Consistent :=
  consistent.markInitialized.eraseKeys _

theorem Consistent.updateInstalledState (consistent : database.Consistent) (legacy : Option (List α))
    {entry : HistoryEntry α} (filed : entry.system ≠ []) (named : entry.packageName ≠ []) :
    (database.updateInstalledState legacy entry).Consistent := by
  have ready := consistent.ensureLegacyInstalledStateImported legacy
  simp only [Database.updateInstalledState]
  split
  · exact consistent
  · split
    · exact consistent
    · split
      · exact ready.removeInstalledState _ _ _
      · have written : ∀ cleared : Database α, cleared.Consistent → (cleared.upsertInstalledState
            { name := entry.packageName, version := entry.packageVersion, system := entry.system,
              installedAt := entry.timestamp }).Consistent :=
          fun cleared kept => kept.markInitialized.putEntry named filed (Or.inl rfl)
        apply written
        split
        · exact ready.removeInstalledState _ _ _
        · exact ready

theorem Consistent.replaceInstalledState (consistent : database.Consistent) (legacy : Option (List α))
    {system : List α} (filed : system ≠ []) (syncedAt : List α) {given : List (StoredEntry α)}
    (settled : ∀ entry ∈ given, Settled entry) :
    (database.replaceInstalledState legacy system syncedAt given).Consistent := by
  have ready := consistent.ensureLegacyInstalledStateImported legacy
  refine (ready.markInitialized.eraseKeys _).foldl_putEntry fun entry member => ?_
  obtain ⟨listed, kept, rfl⟩ := List.mem_map.mp member
  obtain ⟨present, named⟩ := List.mem_filter.mp kept
  refine ⟨by simpa [replacedEntry] using named, filed, ?_⟩
  exact replacedEntry_fits (fun _ => ready.existing) system syncedAt (settled listed present)

theorem Consistent.mergeInstalledOwnership (consistent : database.Consistent) (legacy : Option (List α))
    {package : PackageName α} {ownerIds : List (List α)} {directRequest : Bool}
    (rooted : directRequest = true → rootOwnerId package ∈ ownerIds) :
    (database.mergeInstalledOwnership legacy package ownerIds directRequest).Consistent := by
  have ready := consistent.ensureLegacyInstalledStateImported legacy
  simp only [Database.mergeInstalledOwnership]
  split
  · exact consistent
  · split
    · exact ready
    · rename_i key entry found
      exact ready.rewrite found ⟨rfl, rfl, rfl⟩ (mergedEntry_fits rooted entry)

theorem Consistent.subtractInstalledOwnership (consistent : database.Consistent)
    (legacy : Option (List α)) (package : PackageName α) (ownerIds : List (List α)) :
    (database.subtractInstalledOwnership legacy package ownerIds).Consistent := by
  have ready := consistent.ensureLegacyInstalledStateImported legacy
  simp only [Database.subtractInstalledOwnership]
  split
  · exact consistent
  · split
    · exact ready
    · rename_i key entry found
      exact ready.rewrite found ⟨rfl, rfl, rfl⟩ (subtractedEntry_fits entry ownerIds)

end Database

/-- The step lemma: a call with fitting arguments keeps the database consistent. -/
theorem Operation.apply_consistent {database : Database α} (consistent : database.Consistent)
    {operation : Operation α} (named : operation.Named) (settled : operation.ListsSettled) :
    (operation.apply database).Consistent := by
  cases operation with
  | load legacy => exact consistent.ensureLegacyInstalledStateImported legacy
  | update legacy entry => exact consistent.updateInstalledState legacy named.1 named.2
  | replace legacy system syncedAt given =>
      exact consistent.replaceInstalledState legacy named.1 syncedAt settled
  | merge legacy package ownerIds directRequest =>
      exact consistent.mergeInstalledOwnership legacy named.2.2
  | subtract legacy package ownerIds => exact consistent.subtractInstalledOwnership legacy package ownerIds

/-- The database after a sequence of calls, starting without any entry. -/
def runOperations (operations : List (Operation α)) : Database α := operations.foldl Operation.apply {}

theorem runOperations_consistent {operations : List (Operation α)}
    (fitting : ∀ operation ∈ operations, operation.Named ∧ operation.ListsSettled) :
    (runOperations operations).Consistent := by
  induction operations using List.reverseRecOn with
  | nil =>
      intro key payload present
      simp [runOperations, KeyValue.get] at present
  | append_singleton operations operation ih =>
      obtain ⟨named, settled⟩ := fitting operation (by simp)
      have before := ih fun earlier member => fitting earlier (by simp [member])
      rw [runOperations, List.foldl_append]
      exact Operation.apply_consistent before named settled

/-- A package whose name holds a line break and a backslash. -/
def oddPackage : PackageName UInt8 :=
  { system := text "apt", name := text "py\nthon\\", version := text "3" }

def oddInstalled : HistoryEntry UInt8 :=
  { timestamp := text "t"
    action := text "install"
    packageName := oddPackage.name
    packageVersion := oddPackage.version
    system := oddPackage.system
    status := text "success" }

def oddCalls : List (Operation UInt8) :=
  [.update (some (text "\"name\":\"gcc\",\"manager\":\"apt\"")) oddInstalled,
    .merge none oddPackage [rootOwnerId oddPackage, text "pkg\npip\nnumpy"] true,
    .replace none oddPackage.system (text "u") [{ name := oddPackage.name, version := text "4" }],
    .subtract none oddPackage [rootOwnerId oddPackage]]

/-- An entry that claims to be a dependency without naming an owner. -/
def ownerlessDependency : StoredEntry UInt8 := { name := text "python", installMethod := text "dependency" }

end Operations

end ReqPack.Storage
