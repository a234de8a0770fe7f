import Mathlib.Algebra.Order.BigOperators.Group.List
import ReqPack.Executor.Orphans
import ReqPack.Executor.Ownership

/-! # Which entry a requirement stands for

Owners are merged into and subtracted from the entry that the store looks up; what the
clean-up examines for the same requirement is looked up a second time, in the loaded
entries, and more strictly.
-/

namespace ReqPack.Executor

open ReqPack.Data ReqPack.Core ReqPack.Scheduler

open InstalledStore

/-- The entry was there before with other owners. -/
def OwnersChanged (before after : InstalledStore) (entry : InstalledEntry) : Prop :=
  entry ∈ before.loadInstalledState ∧
    ∀ written ∈ after.loadInstalledState, sameEntryKey entry written = true → written.owners ≠ entry.owners

/-- The clean-up examines the entry for the requirement. -/
def Examines (store : InstalledStore) (requirement : Package) (entry : InstalledEntry) : Prop :=
  ∃ examined, findInstalledDependency store.loadInstalledState requirement = some examined ∧
    sameEntryKey entry examined = true

/-- For this requirement the bookkeeping of owners and the clean-up go by the same entry,
and what the clean-up removes is that entry alone. -/
structure SameEntry (store : InstalledStore) (requirement : Package) : Prop where
  merged : ∀ ownerIds directRequest entry,
    OwnersChanged store (store.mergeInstalledOwnership requirement ownerIds directRequest) entry →
    Examines (store.mergeInstalledOwnership requirement ownerIds directRequest) requirement entry
  subtracted : ∀ ownerIds entry,
    OwnersChanged store (store.subtractInstalledOwnership requirement ownerIds) entry →
    Examines (store.subtractInstalledOwnership requirement ownerIds) requirement entry
  removed : ∀ ownerIds package,
    let after := store.subtractInstalledOwnership requirement ownerIds
    orphanOf after.loadInstalledState requirement = some package →
    ∃ entry, store.findEntry requirement.system requirement.name requirement.version = some entry ∧
      ∀ other, other ∈ (after.removeEntries package.system package.name package.version).loadInstalledState ↔
        other ∈ after.loadInstalledState ∧ sameEntryKey other entry = false

/-- The version asked for is not installed, and of the name there is one entry only. -/
def FallsBack (store : InstalledStore) (requirement : Package) : Prop :=
  requirement.version ≠ "" ∧ ∃ entry ∈ store.loadInstalledState,
    entry.system = requirement.system ∧ entry.name = requirement.name ∧ entry.version ≠ requirement.version ∧
    ∀ other ∈ store.loadInstalledState, other.system = requirement.system → other.name = requirement.name →
      other.version = entry.version

section Lookups

variable {store before after : InstalledStore} {requirement : Package} {entry : InstalledEntry}

/-- The clean-up looks up what the store does, but takes no other version than the one
asked for. -/
theorem findInstalledDependency_eq (store : InstalledStore) (requirement : Package) :
    findInstalledDependency store.loadInstalledState requirement =
      (store.findEntry requirement.system requirement.name requirement.version).filter fun entry =>
        requirement.version.isEmpty || entry.version == requirement.version := by
  simp only [findInstalledDependency, findEntry, filter_load]
  generalize store.loadInstalledState.filter (fun entry =>
    entry.system == requirement.system && entry.name == requirement.name) = entries
  cases unversioned : requirement.version.isEmpty with
  | true =>
      rcases entries with _ | ⟨first, _ | ⟨second, rest⟩⟩ <;> simp [Option.filter]
  | false =>
      cases found : entries.find? fun entry => entry.version == requirement.version with
      | some entry =>
          have same : entry.version = requirement.version := by simpa using List.find?_some found
          simp [Option.filter, same]
      | none =>
          rcases entries with _ | ⟨first, _ | ⟨second, rest⟩⟩
          · simp
          · have different : first.version ≠ requirement.version := by
              simpa using List.find?_eq_none.mp found first List.mem_cons_self
            simp [Option.filter, different]
          · simp

theorem fallsBack_iff (distinct : KeysDistinct store) :
    FallsBack store requirement ↔ requirement.version ≠ "" ∧
      ∃ entry, store.findEntry requirement.system requirement.name requirement.version = some entry ∧
        entry.version ≠ requirement.version := by
  refine and_congr_right fun versioned => ⟨fun falls => ?_, fun found => ?_⟩
  · obtain ⟨entry, loaded, filed, named, different, alone⟩ := falls
    refine ⟨entry, (findEntry_eq_some distinct).mpr ⟨loaded, filed, named, Or.inr ?_⟩, different⟩
    intro other listed sameSystem sameName
    have same := alone other listed sameSystem sameName
    exact ⟨Or.inr (same ▸ different), same⟩
  · obtain ⟨entry, found, different⟩ := found
    obtain ⟨loaded, filed, named, choice⟩ := (findEntry_eq_some distinct).mp found
    rcases choice with exactly | alone
    · exact absurd exactly.2 different
    · exact ⟨entry, loaded, filed, named, different,
        fun other listed sameSystem sameName => (alone other listed sameSystem sameName).2⟩

/-- Without a fall back both look-ups find the same. -/
theorem findInstalledDependency_of_not_fallsBack (distinct : KeysDistinct store)
    (exactly : ¬ FallsBack store requirement) :
    findInstalledDependency store.loadInstalledState requirement =
      store.findEntry requirement.system requirement.name requirement.version := by
  rw [findInstalledDependency_eq]
  cases found : store.findEntry requirement.system requirement.name requirement.version with
  | none => rfl
  | some entry =>
      have fits : requirement.version = "" ∨ entry.version = requirement.version := by
        by_contra neither
        rw [not_or] at neither
        exact exactly ((fallsBack_iff distinct).2 ⟨neither.1, entry, found, neither.2⟩)
      simpa [String.isEmpty_iff] using fits

end Lookups

section Writing

variable {store before after : InstalledStore} {requirement : Package} {entry : InstalledEntry}

/-- Rewriting the owners back is a rewriting, too. -/
theorem Rewritten.flip (rewritten : Rewritten (fun _ _ => True) before after) (distinct : KeysDistinct before) :
    Rewritten (fun _ _ => True) after before := by
  refine ⟨fun written member => ?_, fun entry member => ?_, fun _ => distinct⟩
  · obtain ⟨entry, listed, same, _⟩ := rewritten.known written member
    exact ⟨entry, listed, by rwa [sameEntryKey_comm], trivial⟩
  · obtain ⟨written, listed, same, _⟩ := rewritten.kept entry member
    exact ⟨written, listed, by rwa [sameEntryKey_comm], trivial⟩

/-- A look-up finds the entry of the same key again. -/
theorem Rewritten.found (rewritten : Rewritten (fun _ _ => True) before after) (distinct : KeysDistinct before)
    {system name version : String} (found : before.findEntry system name version = some entry) :
    ∃ written, after.findEntry system name version = some written ∧ sameEntryKey entry written = true := by
  obtain ⟨written, again, same, _⟩ := (Rewritten.flip rewritten distinct).findEntry (rewritten.distinct distinct) found
  exact ⟨written, again, by rwa [sameEntryKey_comm]⟩

theorem fallsBack_of_rewritten (rewritten : Rewritten (fun _ _ => True) before after)
    (distinct : KeysDistinct before) (falls : FallsBack after requirement) : FallsBack before requirement := by
  obtain ⟨versioned, written, found, different⟩ := (fallsBack_iff (rewritten.distinct distinct)).1 falls
  obtain ⟨entry, again, same⟩ :=
    Rewritten.found (Rewritten.flip rewritten distinct) (rewritten.distinct distinct) found
  refine (fallsBack_iff distinct).2 ⟨versioned, entry, again, ?_⟩
  rwa [← (sameEntryKey_iff.1 same).2.2]

/-- An entry of another key is not touched. -/
theorem mem_load_put {written : InstalledEntry} (loaded : entry ∈ store.loadInstalledState)
    (apart : sameEntryKey entry written = false) : entry ∈ (store.put written).loadInstalledState := by
  obtain ⟨raw, member, read⟩ := mem_loadInstalledState.1 loaded
  obtain ⟨system, name, version, _⟩ := readBack_key read
  refine mem_loadInstalledState.2 ⟨raw, mem_put.2 (Or.inr ⟨member, ?_⟩), read⟩
  simpa only [sameEntryKey, system, name, version] using apart

/-- Only the entry that is looked up can change its owners. -/
theorem found_of_ownersChanged {found : InstalledEntry} {owners : List String} {method : String}
    (changed : OwnersChanged store (store.put { found with owners := owners, installMethod := method }) entry) :
    sameEntryKey entry found = true := by
  by_contra apart
  have kept : entry ∈ (store.put { found with owners := owners, installMethod := method }).loadInstalledState :=
    mem_load_put changed.1 (by simpa [sameEntryKey] using apart)
  exact changed.2 entry kept (sameEntryKey_iff.2 ⟨rfl, rfl, rfl⟩) rfl

theorem not_ownersChanged_self : ¬ OwnersChanged store store entry := fun changed =>
  changed.2 entry changed.1 (sameEntryKey_iff.2 ⟨rfl, rfl, rfl⟩) rfl

theorem Rewritten.forget {relation : List String → List String → Prop} (rewritten : Rewritten relation before after) :
    Rewritten (fun _ _ => True) before after := by
  refine ⟨fun entry member => ?_, fun written member => ?_, rewritten.distinct⟩
  · obtain ⟨written, listed, same, _⟩ := rewritten.kept entry member
    exact ⟨written, listed, same, trivial⟩
  · obtain ⟨entry, listed, same, _⟩ := rewritten.known written member
    exact ⟨entry, listed, same, trivial⟩

/-- Both operations write owners and a method into the entry that is looked up, or nothing. -/
def WritesFound (store after : InstalledStore) (requirement : Package) : Prop :=
  after = store ∨ ∃ found owners method,
    store.findEntry requirement.system requirement.name requirement.version = some found ∧
      after = store.put { found with owners := owners, installMethod := method }

theorem mergeInstalledOwnership_writes (store : InstalledStore) (requirement : Package) (ownerIds : List String)
    (directRequest : Bool) :
    WritesFound store (store.mergeInstalledOwnership requirement ownerIds directRequest) requirement := by
  unfold mergeInstalledOwnership
  split
  · exact Or.inl rfl
  · split
    · exact Or.inl rfl
    · rename_i found looked
      exact Or.inr ⟨found, _, _, looked, rfl⟩

theorem subtractInstalledOwnership_writes (store : InstalledStore) (requirement : Package)
    (ownerIds : List String) :
    WritesFound store (store.subtractInstalledOwnership requirement ownerIds) requirement := by
  unfold subtractInstalledOwnership
  split
  · exact Or.inl rfl
  · split
    · exact Or.inl rfl
    · rename_i found looked
      exact Or.inr ⟨found, _, _, looked, rfl⟩

/-- What changes its owners is examined, unless the look-up fell back to another version. -/
theorem examines_of_writesFound (distinct : KeysDistinct store) (exactly : ¬ FallsBack store requirement)
    (writes : WritesFound store after requirement) (rewritten : Rewritten (fun _ _ => True) store after)
    (changed : OwnersChanged store after entry) : Examines after requirement entry := by
  rcases writes with rfl | ⟨found, owners, method, looked, rfl⟩
  · exact absurd changed not_ownersChanged_self
  · obtain ⟨written, again, same⟩ := Rewritten.found rewritten distinct looked
    have still : ¬ FallsBack _ requirement := fun falls => exactly (fallsBack_of_rewritten rewritten distinct falls)
    refine ⟨written, ?_, ?_⟩
    · rw [findInstalledDependency_of_not_fallsBack (rewritten.distinct distinct) still, again]
    · have key := sameEntryKey_iff.1 (found_of_ownersChanged changed)
      have next := sameEntryKey_iff.1 same
      exact sameEntryKey_iff.2 ⟨key.1.trans next.1, key.2.1.trans next.2.1, key.2.2.trans next.2.2⟩

end Writing

section Removing

variable {store : InstalledStore} {requirement package : Package} {entry : InstalledEntry}

/-- A removal takes away the entry that was examined, and no other. -/
theorem removeEntries_orphan (distinct : KeysDistinct store)
    (orphan : orphanOf store.loadInstalledState requirement = some package) :
    ∃ examined, findInstalledDependency store.loadInstalledState requirement = some examined ∧
      ∀ other, other ∈ (store.removeEntries package.system package.name package.version).loadInstalledState ↔
        other ∈ store.loadInstalledState ∧ sameEntryKey other examined = false := by
  obtain ⟨examined, found, _, rfl⟩ := orphanOf_spec orphan
  refine ⟨examined, found, fun other => ?_⟩
  obtain ⟨loaded, filed, named, choice⟩ :=
    (findEntry_eq_some distinct).mp (findEntry_of_findInstalledDependency distinct found)
  -- a removal without a version takes all entries of the name, and there is one only
  have targets : ∀ other ∈ store.loadInstalledState,
      (other.system = requirement.system ∧ other.name = requirement.name ∧
        (examined.version = "" ∨ other.version = examined.version)) ↔ sameEntryKey other examined = true := by
    intro other listed
    rw [sameEntryKey_iff, filed, named]
    refine and_congr_right fun sameSystem => and_congr_right fun sameName => ⟨fun target => ?_, Or.inr⟩
    rcases target with unversioned | same
    · rcases choice with exactly | alone
      · exact absurd (exactly.2.symm.trans unversioned) exactly.1
      · exact (alone other listed sameSystem sameName).2
    · exact same
  rw [mem_loadInstalledState, mem_loadInstalledState]
  constructor
  · intro kept
    obtain ⟨raw, member, read⟩ := kept
    obtain ⟨system, name, version, _⟩ := readBack_key read
    rw [mem_removeEntries, ← system, ← name, ← version] at member
    refine ⟨⟨raw, member.1, read⟩, ?_⟩
    rw [Bool.eq_false_iff, Ne, ← targets other (mem_loadInstalledState.2 ⟨raw, member.1, read⟩)]
    exact member.2
  · intro kept
    obtain ⟨⟨raw, member, read⟩, apart⟩ := kept
    obtain ⟨system, name, version, _⟩ := readBack_key read
    rw [Bool.eq_false_iff, Ne, ← targets other (mem_loadInstalledState.2 ⟨raw, member, read⟩)] at apart
    refine ⟨raw, mem_removeEntries.2 ⟨member, ?_⟩, read⟩
    rwa [← system, ← name, ← version]

end Removing

/-- A name that is in no list of owners. -/
theorem exists_new_owner (owners : List String) : ∃ owner, owner ≠ "" ∧ owner ∉ owners := by
  have long : ∀ owner ∈ owners, owner.length ≤ (owners.map String.length).sum := fun owner member =>
    List.le_sum_of_mem (List.mem_map_of_mem member)
  refine ⟨String.ofList (List.replicate ((owners.map String.length).sum + 1) 'x'), ?_, fun member => ?_⟩
  · simp
  · have bound := long _ member
    rw [String.length_ofList, List.length_replicate] at bound
    omega

section Agreement

variable {store : InstalledStore} {requirement : Package}

theorem sameEntry_of_not_fallsBack (distinct : KeysDistinct store) (exactly : ¬ FallsBack store requirement) :
    SameEntry store requirement := by
  constructor
  case merged =>
    intro ownerIds directRequest entry changed
    exact examines_of_writesFound distinct exactly (mergeInstalledOwnership_writes _ _ _ _)
      (Rewritten.forget (mergeInstalledOwnership_grows distinct requirement ownerIds directRequest)) changed
  case subtracted =>
    intro ownerIds entry changed
    exact examines_of_writesFound distinct exactly (subtractInstalledOwnership_writes _ _ _)
      (Rewritten.forget (subtractInstalledOwnership_shrinks distinct requirement ownerIds)) changed
  case removed =>
    intro ownerIds package after orphan
    have rewritten := Rewritten.forget (subtractInstalledOwnership_shrinks distinct requirement ownerIds)
    have keys := rewritten.distinct distinct
    obtain ⟨examined, found, removal⟩ := removeEntries_orphan keys orphan
    obtain ⟨entry, looked, same⟩ :=
      Rewritten.found (Rewritten.flip rewritten distinct) keys (findEntry_of_findInstalledDependency keys found)
    refine ⟨entry, looked, fun other => ?_⟩
    obtain ⟨system, name, version⟩ := sameEntryKey_iff.1 same
    rw [removal other, sameEntryKey, sameEntryKey, system, name, version]

theorem not_fallsBack_of_sameEntry (distinct : KeysDistinct store) (same : SameEntry store requirement) :
    ¬ FallsBack store requirement := by
  intro falls
  obtain ⟨versioned, entry, found, different⟩ := (fallsBack_iff distinct).1 falls
  obtain ⟨owner, named, new⟩ := exists_new_owner entry.owners
  have rewritten := Rewritten.forget (mergeInstalledOwnership_grows distinct requirement [owner] false)
  have keys := rewritten.distinct distinct
  obtain ⟨written, again, key⟩ := Rewritten.found rewritten distinct found
  have owned := mergeInstalledOwnership_owned distinct false (List.mem_singleton_self owner) named written again
  have changed : OwnersChanged store (store.mergeInstalledOwnership requirement [owner] false) entry := by
    refine ⟨((findEntry_eq_some distinct).mp found).1, fun other listed sameKey unchanged => ?_⟩
    have writtenKey := sameEntryKey_iff.1 key
    have otherKey := sameEntryKey_iff.1 sameKey
    have equal : other = written :=
      keys.eq_of_loaded listed ((findEntry_eq_some keys).mp again).1 (sameEntryKey_iff.2
        ⟨otherKey.1.symm.trans writtenKey.1, otherKey.2.1.symm.trans writtenKey.2.1,
          otherKey.2.2.symm.trans writtenKey.2.2⟩)
    rw [equal] at unchanged
    rw [unchanged] at owned
    exact new owned
  obtain ⟨examined, dependency, examinedKey⟩ := same.merged [owner] false entry changed
  -- what is examined has the version that was asked for
  rw [findInstalledDependency_eq, Option.filter_eq_some_iff] at dependency
  obtain ⟨_, fits⟩ := dependency
  have fits : examined.version = requirement.version := by
    simpa [String.isEmpty_iff, versioned] using fits
  exact different ((sameEntryKey_iff.1 examinedKey).2.2.trans fits)

/-- The two agree on the entry of a requirement unless it asks for a version that is not
installed while one entry of that name is. -/
theorem sameEntry_iff_not_fallsBack (distinct : KeysDistinct store) :
    SameEntry store requirement ↔ ¬ FallsBack store requirement :=
  ⟨not_fallsBack_of_sameEntry distinct, sameEntry_of_not_fallsBack distinct⟩

/-- The one version of a tool that is installed. -/
def newerTool : InstalledEntry :=
  { name := "tool", version := "2.0", system := "apt", installedAt := "t", installMethod := "unknown" }

theorem loadInstalledState_newerTool : loadInstalledState [newerTool] = [newerTool] := by decide +kernel

theorem same_entry_of_installed_version :
    KeysDistinct [newerTool] ∧ SameEntry [newerTool] { system := "apt", name := "tool", version := "2.0" } := by
  have distinct : KeysDistinct [newerTool] := List.pairwise_singleton _ _
  refine ⟨distinct, (sameEntry_iff_not_fallsBack distinct).2 fun falls => ?_⟩
  obtain ⟨_, entry, loaded, _, _, different, _⟩ := falls
  rw [loadInstalledState_newerTool, List.mem_singleton] at loaded
  exact different (congrArg InstalledEntry.version loaded)

/-- A requirement for an older version makes its package an owner of the newer one, which
the clean-up then never looks at. -/
theorem newer_tool_is_owned_and_not_examined :
    ¬ SameEntry [newerTool] { system := "apt", name := "tool", version := "1.0" } := by
  intro same
  have written : (mergeInstalledOwnership [newerTool] { system := "apt", name := "tool", version := "1.0" }
      ["pkg\nnpm\napp"] false).loadInstalledState =
        [{ newerTool with owners := ["pkg\nnpm\napp"], installMethod := "dependency" }] := by decide +kernel
  have changed : OwnersChanged [newerTool] (mergeInstalledOwnership [newerTool]
      { system := "apt", name := "tool", version := "1.0" } ["pkg\nnpm\napp"] false) newerTool := by
    refine ⟨by rw [loadInstalledState_newerTool]; exact List.mem_singleton_self _, fun entry listed _ => ?_⟩
    rw [written, List.mem_singleton] at listed
    simp [listed, newerTool]
  obtain ⟨examined, found, _⟩ := same.merged _ false newerTool changed
  rw [written] at found
  simp [findInstalledDependency, newerTool] at found

end Agreement

end ReqPack.Executor
