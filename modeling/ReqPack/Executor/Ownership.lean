import ReqPack.Executor.InstalledFacts
import ReqPack.Executor.Frames

/-! # The owners of an entry

Merging and subtracting owners rewrite one entry in place.  Which entry a look-up
finds does not change by that, so what was merged into it can be found again.
-/

namespace ReqPack.Executor

open ReqPack.Data ReqPack.Core ReqPack.Scheduler

namespace InstalledStore

section Lookup

variable {store : InstalledStore} {entry : InstalledEntry} {system name version : String}

theorem KeysDistinct.put (distinct : KeysDistinct store) (written : InstalledEntry) :
    KeysDistinct (put store written) := by
  have kept : KeysDistinct (store.filter fun other => !sameEntryKey other written) :=
    List.Pairwise.filter _ distinct
  unfold KeysDistinct InstalledStore.put
  rw [(List.perm_orderedInsert _ _ _).pairwise_iff fun different => by rwa [sameEntryKey_comm] at different,
    List.pairwise_cons]
  refine ⟨fun other member => ?_, kept⟩
  rw [sameEntryKey_comm]
  simpa using (List.mem_filter.mp member).2

theorem KeysDistinct.foldl_put {α : Type} {base : InstalledStore} (distinct : KeysDistinct base)
    (entryOf : α → InstalledEntry) (values : List α) :
    KeysDistinct (values.foldl (fun store value => InstalledStore.put store (entryOf value)) base) := by
  induction values generalizing base with
  | nil => exact distinct
  | cons value values ih => exact ih (distinct.put _)

theorem KeysDistinct.replaced (distinct : KeysDistinct store) (system syncedAt : String)
    (listed : List InstalledEntry) : KeysDistinct (replaceInstalledState store system syncedAt listed) := by
  have others : KeysDistinct (store.filter fun entry => entry.system != system) :=
    List.Pairwise.filter _ distinct
  exact others.foldl_put _ _

theorem KeysDistinct.updated (distinct : KeysDistinct store) (action : ActionType)
    (system name version : String) : KeysDistinct (updateInstalledState store action system name version) := by
  have fewer : ∀ version, KeysDistinct (removeEntries store system name version) :=
    fun version => List.Pairwise.filter _ distinct
  unfold updateInstalledState
  split
  · exact fewer version
  · split
    · exact (fewer "").put _
    · split
      · exact distinct.put _
      · exact distinct

/-- Entries that are read have different keys as well. -/
theorem KeysDistinct.loaded (distinct : KeysDistinct store) :
    (loadInstalledState store).Pairwise fun left right => sameEntryKey left right = false := by
  unfold loadInstalledState
  refine List.Pairwise.filterMap _ (fun left right apart found foundRead other otherRead => ?_) distinct
  obtain ⟨system, name, version, _⟩ := readBack_key foundRead
  obtain ⟨system', name', version', _⟩ := readBack_key otherRead
  simp only [sameEntryKey, system, name, version, system', name', version'] at apart ⊢
  exact apart

theorem KeysDistinct.eq_of_loaded (distinct : KeysDistinct store) {left right : InstalledEntry}
    (leftMember : left ∈ loadInstalledState store) (rightMember : right ∈ loadInstalledState store)
    (same : sameEntryKey left right = true) : left = right :=
  KeysDistinct.eq_of_sameKey distinct.loaded leftMember rightMember same

theorem eq_singleton_of_apart {entries : List InstalledEntry}
    (apart : entries.Pairwise fun left right => sameEntryKey left right = false)
    (member : entry ∈ entries) (all : ∀ other ∈ entries, other = entry) : entries = [entry] := by
  cases entries with
  | nil => simp at member
  | cons first rest =>
      have head := all first List.mem_cons_self
      cases rest with
      | nil => rw [head]
      | cons second others =>
          have next := all second (by simp)
          rw [head, next] at apart
          have different := (List.pairwise_cons.mp apart).1 entry List.mem_cons_self
          simp [sameEntryKey] at different

/-- The entries `findEntry` looks at. -/
theorem filter_load (store : InstalledStore) (system name : String) :
    (store.filter fun entry => entry.system == system && entry.name == name).filterMap readBack =
      (loadInstalledState store).filter fun entry => entry.system == system && entry.name == name := by
  unfold loadInstalledState
  induction store with
  | nil => rfl
  | cons raw store ih =>
      cases read : readBack raw with
      | none =>
          rw [List.filterMap_cons_none read, List.filter_cons]
          split
          · rw [List.filterMap_cons_none read, ih]
          · exact ih
      | some found =>
          obtain ⟨sameSystem, sameName, _⟩ := readBack_key read
          rw [List.filterMap_cons_some read, List.filter_cons, List.filter_cons, sameSystem, sameName]
          split
          · rw [List.filterMap_cons_some read, ih]
          · exact ih

/-- A look-up finds the version asked for, or the only entry of the name. -/
theorem findEntry_eq_some (distinct : KeysDistinct store) :
    findEntry store system name version = some entry ↔
      entry ∈ loadInstalledState store ∧ entry.system = system ∧ entry.name = name ∧
        ((version ≠ "" ∧ entry.version = version) ∨
          ∀ other ∈ loadInstalledState store, other.system = system → other.name = name →
            (version = "" ∨ other.version ≠ version) ∧ other.version = entry.version) := by
  have listed : ∀ other, other ∈ (loadInstalledState store).filter (fun entry =>
      entry.system == system && entry.name == name) ↔
      other ∈ loadInstalledState store ∧ other.system = system ∧ other.name = name := by
    simp
  have apart : ((loadInstalledState store).filter fun entry =>
      entry.system == system && entry.name == name).Pairwise
      fun left right => sameEntryKey left right = false := List.Pairwise.filter _ distinct.loaded
  simp only [findEntry, filter_load]
  generalize (loadInstalledState store).filter (fun entry =>
    entry.system == system && entry.name == name) = entries at listed apart
  have keyed : ∀ left ∈ entries, ∀ right ∈ entries, left.version = right.version → left = right := by
    intro left leftMember right rightMember same
    obtain ⟨_, leftSystem, leftName⟩ := (listed left).mp leftMember
    obtain ⟨_, rightSystem, rightName⟩ := (listed right).mp rightMember
    exact KeysDistinct.eq_of_sameKey apart leftMember rightMember (sameEntryKey_iff.2
      ⟨leftSystem.trans rightSystem.symm, leftName.trans rightName.symm, same⟩)
  have single : ∀ {found}, found ∈ entries → (∀ other ∈ entries, other.version = found.version) →
      entries = [found] := by
    intro found member all
    exact eq_singleton_of_apart apart member fun other otherMember =>
      keyed other otherMember found member (all other otherMember)
  cases chosen : (if version.isEmpty then none else entries.find? fun entry => entry.version == version) with
  | some found =>
      rw [Option.ite_none_left_eq_some, String.isEmpty_iff] at chosen
      obtain ⟨given, chosen⟩ := chosen
      have member := List.mem_of_find?_eq_some chosen
      have version_eq : found.version = version := by simpa using List.find?_some chosen
      simp only [Option.some.injEq]
      constructor
      · intro same
        subst entry
        obtain ⟨loaded, sameSystem, sameName⟩ := (listed found).mp member
        exact ⟨loaded, sameSystem, sameName, Or.inl ⟨given, version_eq⟩⟩
      · intro described
        obtain ⟨loaded, sameSystem, sameName, exactly | alone⟩ := described
        · exact keyed found member entry ((listed entry).mpr ⟨loaded, sameSystem, sameName⟩)
            (version_eq.trans exactly.2.symm)
        · obtain ⟨foundLoaded, foundSystem, foundName⟩ := (listed found).mp member
          rcases (alone found foundLoaded foundSystem foundName).1 with empty | different
          · exact absurd empty given
          · exact absurd version_eq different
  | none =>
      have absent : version = "" ∨ ∀ other ∈ entries, other.version ≠ version := by
        by_cases given : version = ""
        · exact Or.inl given
        · right
          intro other member same
          rw [if_neg (by simpa [String.isEmpty_iff] using given), List.find?_eq_none] at chosen
          simpa [same] using chosen other member
      constructor
      · intro found
        have only : entries = [entry] := by
          cases entries with
          | nil => simp at found
          | cons first rest =>
              cases rest with
              | nil => simpa using found
              | cons second others => simp at found
        have member : entry ∈ entries := by simp [only]
        obtain ⟨loaded, sameSystem, sameName⟩ := (listed entry).mp member
        refine ⟨loaded, sameSystem, sameName, Or.inr fun other otherLoaded otherSystem otherName => ?_⟩
        have otherMember := (listed other).mpr ⟨otherLoaded, otherSystem, otherName⟩
        rw [only, List.mem_singleton] at otherMember
        subst other
        refine ⟨?_, rfl⟩
        rcases absent with empty | different
        · exact Or.inl empty
        · exact Or.inr (different entry member)
      · intro described
        obtain ⟨loaded, sameSystem, sameName, exactly | alone⟩ := described
        · have member := (listed entry).mpr ⟨loaded, sameSystem, sameName⟩
          rcases absent with empty | different
          · exact absurd empty exactly.1
          · exact absurd exactly.2 (different entry member)
        · have member := (listed entry).mpr ⟨loaded, sameSystem, sameName⟩
          have only := single member fun other otherMember => by
            obtain ⟨otherLoaded, otherSystem, otherName⟩ := (listed other).mp otherMember
            exact (alone other otherLoaded otherSystem otherName).2
          rw [only]

end Lookup

section Rewriting

variable {store before after : InstalledStore} {relation : List String → List String → Prop}

/-- The same entries before and after, with owners that are related. -/
structure Rewritten (relation : List String → List String → Prop) (before after : InstalledStore) : Prop where
  kept : ∀ entry ∈ loadInstalledState before, ∃ written ∈ loadInstalledState after,
    sameEntryKey entry written = true ∧ relation entry.owners written.owners
  known : ∀ written ∈ loadInstalledState after, ∃ entry ∈ loadInstalledState before,
    sameEntryKey entry written = true ∧ relation entry.owners written.owners
  distinct : KeysDistinct before → KeysDistinct after

theorem Rewritten.refl (reflexive : ∀ owners, relation owners owners) (store : InstalledStore) :
    Rewritten relation store store :=
  ⟨fun entry member => ⟨entry, member, sameEntryKey_iff.2 ⟨rfl, rfl, rfl⟩, reflexive _⟩,
    fun entry member => ⟨entry, member, sameEntryKey_iff.2 ⟨rfl, rfl, rfl⟩, reflexive _⟩, id⟩

theorem Rewritten.trans
    (transitive : ∀ first second third, relation first second → relation second third → relation first third)
    {first second third : InstalledStore} (earlier : Rewritten relation first second)
    (later : Rewritten relation second third) : Rewritten relation first third := by
  have chained : ∀ {left middle right : InstalledEntry}, sameEntryKey left middle = true →
      sameEntryKey middle right = true → sameEntryKey left right = true := by
    intro left middle right front back
    rw [sameEntryKey_iff] at *
    exact ⟨front.1.trans back.1, front.2.1.trans back.2.1, front.2.2.trans back.2.2⟩
  refine ⟨fun entry member => ?_, fun written member => ?_, fun distinct => later.distinct (earlier.distinct distinct)⟩
  · obtain ⟨middle, middleMember, front, grown⟩ := earlier.kept entry member
    obtain ⟨written, writtenMember, back, grown'⟩ := later.kept middle middleMember
    exact ⟨written, writtenMember, chained front back, transitive _ _ _ grown grown'⟩
  · obtain ⟨middle, middleMember, back, grown'⟩ := later.known written member
    obtain ⟨entry, entryMember, front, grown⟩ := earlier.known middle middleMember
    exact ⟨entry, entryMember, chained front back, transitive _ _ _ grown grown'⟩

/-- Look-ups in a rewritten store find the entry they found before. -/
theorem Rewritten.findEntry (rewritten : Rewritten relation before after) (distinct : KeysDistinct before)
    {system name version : String} {written : InstalledEntry}
    (found : findEntry after system name version = some written) :
    ∃ entry, findEntry before system name version = some entry ∧ sameEntryKey entry written = true ∧
      relation entry.owners written.owners := by
  obtain ⟨loaded, sameSystem, sameName, choice⟩ := (findEntry_eq_some (rewritten.distinct distinct)).mp found
  obtain ⟨entry, member, same, related⟩ := rewritten.known written loaded
  obtain ⟨keySystem, keyName, keyVersion⟩ := sameEntryKey_iff.1 same
  refine ⟨entry, (findEntry_eq_some distinct).mpr
    ⟨member, keySystem.trans sameSystem, keyName.trans sameName, ?_⟩, same, related⟩
  rcases choice with ⟨given, exactly⟩ | alone
  · exact Or.inl ⟨given, keyVersion.trans exactly⟩
  · right
    intro other otherMember otherSystem otherName
    obtain ⟨image, imageMember, imageSame, _⟩ := rewritten.kept other otherMember
    obtain ⟨imageSystem, imageName, imageVersion⟩ := sameEntryKey_iff.1 imageSame
    rw [imageVersion, keyVersion]
    exact alone image imageMember (imageSystem.symm.trans otherSystem) (imageName.symm.trans otherName)

/-- Writing new owners into an entry that was found rewrites the store. -/
theorem rewritten_put {system name version : String} {entry : InstalledEntry} {owners : List String}
    {method : String} (distinct : KeysDistinct store)
    (found : findEntry store system name version = some entry)
    (reflexive : ∀ owners, relation owners owners) (related : relation entry.owners (normalizeOwners owners)) :
    Rewritten relation store (put store { entry with owners := owners, installMethod := method }) := by
  obtain ⟨loaded, _, _, _⟩ := (findEntry_eq_some distinct).mp found
  obtain ⟨raw, rawMember, rawRead⟩ := mem_loadInstalledState.1 loaded
  obtain ⟨rawSystem, rawName, rawVersion, _⟩ := readBack_key rawRead
  have named := readBack_named rawRead
  obtain ⟨written, writtenRead⟩ := @readBack_isSome { entry with owners := owners, installMethod := method }
    (by rw [← rawSystem] at named; exact named.1) (by rw [← rawName] at named; exact named.2)
  obtain ⟨writtenSystem, writtenName, writtenVersion, _, writtenOwners⟩ := readBack_key writtenRead
  have sameKey : sameEntryKey entry written = true :=
    sameEntryKey_iff.2 ⟨writtenSystem.symm, writtenName.symm, writtenVersion.symm⟩
  have newRelated : relation entry.owners written.owners := by
    rw [writtenOwners]
    exact related
  refine ⟨fun other member => ?_, fun image member => ?_, fun _ => distinct.put _⟩
  · by_cases same : sameEntryKey other entry = true
    · obtain rfl := distinct.eq_of_loaded member loaded same
      exact ⟨written, mem_loadInstalledState.2 ⟨_, mem_put.2 (Or.inl rfl), writtenRead⟩, sameKey, newRelated⟩
    · obtain ⟨otherRaw, otherMember, otherRead⟩ := mem_loadInstalledState.1 member
      obtain ⟨otherSystem, otherName, otherVersion, _⟩ := readBack_key otherRead
      refine ⟨other, mem_loadInstalledState.2 ⟨otherRaw, mem_put.2 (Or.inr ⟨otherMember, ?_⟩), otherRead⟩,
        sameEntryKey_iff.2 ⟨rfl, rfl, rfl⟩, reflexive _⟩
      rw [Bool.not_eq_true] at same
      simpa only [sameEntryKey, otherSystem, otherName, otherVersion] using same
  · obtain ⟨imageRaw, imageMember, imageRead⟩ := mem_loadInstalledState.1 member
    rcases mem_put.1 imageMember with rfl | ⟨old, _⟩
    · rw [writtenRead] at imageRead
      cases imageRead
      exact ⟨entry, loaded, sameKey, newRelated⟩
    · exact ⟨image, mem_loadInstalledState.2 ⟨imageRaw, old, imageRead⟩,
        sameEntryKey_iff.2 ⟨rfl, rfl, rfl⟩, reflexive _⟩

/-- The entry that was rewritten is found with its new owners. -/
theorem findEntry_put {system name version : String} {entry written : InstalledEntry} {owners : List String}
    {method : String} (distinct : KeysDistinct store)
    (found : findEntry store system name version = some entry)
    (foundAgain : findEntry (put store { entry with owners := owners, installMethod := method })
      system name version = some written) : written.owners = normalizeOwners owners := by
  have rewritten : Rewritten (fun _ _ => True) store
      (put store { entry with owners := owners, installMethod := method }) :=
    rewritten_put distinct found (fun _ => trivial) trivial
  obtain ⟨old, oldFound, same, _⟩ := rewritten.findEntry distinct foundAgain
  obtain rfl : entry = old := Option.some.inj (found.symm.trans oldFound)
  obtain ⟨loaded, _⟩ := (findEntry_eq_some (rewritten.distinct distinct)).mp foundAgain
  obtain ⟨raw, member, read⟩ := mem_loadInstalledState.1 loaded
  obtain ⟨rawSystem, rawName, rawVersion, _, rawOwners⟩ := readBack_key read
  rcases mem_put.1 member with rfl | ⟨_, apart⟩
  · exact rawOwners
  · have same' : sameEntryKey raw { entry with owners := owners, installMethod := method } = true := by
      obtain ⟨keySystem, keyName, keyVersion⟩ := sameEntryKey_iff.1 same
      exact sameEntryKey_iff.2 ⟨rawSystem.symm.trans keySystem.symm, rawName.symm.trans keyName.symm,
        rawVersion.symm.trans keyVersion.symm⟩
    rw [apart] at same'
    simp at same'

end Rewriting

section Owners

variable {store before after : InstalledStore} {package : Package} {ownerIds : List String} {owner : String}

/-- No owner got lost. -/
def Grows (before after : List String) : Prop := ∀ owner ∈ before, owner ∈ after

/-- No owner was added. -/
def Shrinks (before after : List String) : Prop := ∀ owner ∈ after, owner ∈ before

theorem Grows.refl (owners : List String) : Grows owners owners := fun _ member => member

theorem Grows.trans (first second third : List String) (earlier : Grows first second)
    (later : Grows second third) : Grows first third := fun owner member => later owner (earlier owner member)

theorem Shrinks.refl (owners : List String) : Shrinks owners owners := fun _ member => member

theorem Shrinks.trans (first second third : List String) (earlier : Shrinks first second)
    (later : Shrinks second third) : Shrinks first third := fun owner member => earlier owner (later owner member)

/-- The entry of the package, if there is one, has this owner. -/
def Owned (store : InstalledStore) (package : Package) (owner : String) : Prop :=
  ∀ entry, findEntry store package.system package.name package.version = some entry → owner ∈ entry.owners

theorem Owned.grow (owned : Owned before package owner) (distinct : KeysDistinct before)
    (grown : Rewritten Grows before after) : Owned after package owner := by
  intro written found
  obtain ⟨entry, foundBefore, _, more⟩ := grown.findEntry distinct found
  exact more owner (owned entry foundBefore)

theorem owner_ne_empty_of_loaded {entry : InstalledEntry} (loaded : entry ∈ loadInstalledState store)
    (member : owner ∈ entry.owners) : owner ≠ "" := by
  obtain ⟨raw, _, read⟩ := mem_loadInstalledState.1 loaded
  obtain ⟨_, _, _, _, owners⟩ := readBack_key read
  rw [owners] at member
  exact (mem_normalizeOwners.1 member).2

theorem findEntry_named {system name version : String} {entry : InstalledEntry} (distinct : KeysDistinct store)
    (found : findEntry store system name version = some entry) : system ≠ "" ∧ name ≠ "" := by
  obtain ⟨loaded, rfl, rfl, _⟩ := (findEntry_eq_some distinct).mp found
  obtain ⟨raw, _, read⟩ := mem_loadInstalledState.1 loaded
  obtain ⟨sameSystem, sameName, _⟩ := readBack_key read
  rw [sameSystem, sameName]
  exact readBack_named read

theorem mergeInstalledOwnership_grows (distinct : KeysDistinct store) (package : Package)
    (ownerIds : List String) (directRequest : Bool) :
    Rewritten Grows store (mergeInstalledOwnership store package ownerIds directRequest) := by
  unfold mergeInstalledOwnership
  split
  · exact .refl Grows.refl store
  · split
    · exact .refl Grows.refl store
    · rename_i entry found
      apply rewritten_put distinct found Grows.refl
      intro owner member
      have loaded := ((findEntry_eq_some distinct).mp found).1
      have named := owner_ne_empty_of_loaded loaded member
      exact mem_normalizeOwners.2 ⟨mem_normalizeOwners.2 ⟨List.mem_append_left _ member, named⟩, named⟩

/-- What is merged into an entry is found there. -/
theorem mergeInstalledOwnership_owned (distinct : KeysDistinct store) (directRequest : Bool)
    (member : owner ∈ ownerIds) (named : owner ≠ "") :
    Owned (mergeInstalledOwnership store package ownerIds directRequest) package owner := by
  intro written found
  have grown := mergeInstalledOwnership_grows distinct package ownerIds directRequest
  obtain ⟨entry, foundBefore, _, _⟩ := grown.findEntry distinct found
  obtain ⟨filed, entitled⟩ := findEntry_named distinct foundBefore
  rw [mergeInstalledOwnership, if_neg (by simp [filed, entitled])] at found
  simp only [foundBefore] at found
  rw [findEntry_put distinct foundBefore found]
  exact mem_normalizeOwners.2 ⟨mem_normalizeOwners.2 ⟨List.mem_append_right _ member, named⟩, named⟩

theorem subtractInstalledOwnership_shrinks (distinct : KeysDistinct store) (package : Package)
    (ownerIds : List String) :
    Rewritten Shrinks store (subtractInstalledOwnership store package ownerIds) := by
  unfold subtractInstalledOwnership
  split
  · exact .refl Shrinks.refl store
  · split
    · exact .refl Shrinks.refl store
    · rename_i entry found
      apply rewritten_put distinct found Shrinks.refl
      intro owner member
      have kept := (mem_normalizeOwners.1 (mem_normalizeOwners.1 member).1).1
      exact List.mem_of_mem_filter kept

/-- What is subtracted from an entry is gone. -/
theorem subtractInstalledOwnership_gone (distinct : KeysDistinct store) (member : owner ∈ ownerIds)
    {written : InstalledEntry}
    (found : findEntry (subtractInstalledOwnership store package ownerIds) package.system package.name
      package.version = some written) : owner ∉ written.owners := by
  have shrunk := subtractInstalledOwnership_shrinks distinct package ownerIds
  obtain ⟨entry, foundBefore, _, _⟩ := shrunk.findEntry distinct found
  obtain ⟨filed, entitled⟩ := findEntry_named distinct foundBefore
  rw [subtractInstalledOwnership, if_neg (by simp [filed, entitled])] at found
  simp only [foundBefore] at found
  rw [findEntry_put distinct foundBefore found]
  intro listed
  have kept := (mem_normalizeOwners.1 (mem_normalizeOwners.1 listed).1).1
  simp [member] at kept

end Owners

end InstalledStore

section Reconciling

open InstalledStore

variable {σ : Type} {host : Host σ} {config : ExecutionConfig} {world : World σ}

/-- Merging an owner into several entries. -/
theorem foldl_merge_grows (owner : String) (requirements : List Package) (world : World σ)
    (distinct : KeysDistinct world.installed) :
    Rewritten Grows world.installed (requirements.foldl (fun world requirement => setInstalled
      (world.installed.mergeInstalledOwnership requirement [owner] false) world) world).installed := by
  induction requirements generalizing world with
  | nil => exact .refl Grows.refl _
  | cons requirement requirements ih =>
      have first := mergeInstalledOwnership_grows distinct requirement [owner] false
      exact first.trans Grows.trans (ih (setInstalled _ world) (first.distinct distinct))

@[simp] theorem foldl_setInstalled_plugins {α : Type} (change : α → World σ → InstalledStore)
    (values : List α) (world : World σ) :
    (values.foldl (fun world value => setInstalled (change value world) world) world).plugins =
      world.plugins := by
  induction values generalizing world with
  | nil => rfl
  | cons value values ih => exact ih _

theorem mergeOwnershipForPackage_plugins (allPackages : List Package) (package : Package) (world : World σ) :
    (mergeOwnershipForPackage host allPackages package world).plugins = world.plugins := by
  simp only [mergeOwnershipForPackage, foldl_setInstalled_plugins]
  split <;> rfl

theorem mergeOwnershipForPackage_grows (allPackages : List Package) (package : Package)
    (distinct : KeysDistinct world.installed) :
    Rewritten Grows world.installed (mergeOwnershipForPackage host allPackages package world).installed := by
  simp only [mergeOwnershipForPackage]
  generalize owned_eq : (if (ownersFor host world.plugins allPackages package).isEmpty then world
    else setInstalled (world.installed.mergeInstalledOwnership package
      (ownersFor host world.plugins allPackages package) package.directRequest) world) = owned
  have first : Rewritten Grows world.installed owned.installed := by
    rw [← owned_eq]
    split
    · exact .refl Grows.refl _
    · exact mergeInstalledOwnership_grows distinct _ _ _
  exact first.trans Grows.trans (foldl_merge_grows _ _ owned (first.distinct distinct))

/-- A requirement of the package is owned by the package. -/
theorem mergeOwnershipForPackage_requirement (allPackages : List Package) {package requirement : Package}
    (distinct : KeysDistinct world.installed)
    (required : requirement ∈ normalizedRequirements host world.plugins package) :
    Owned (mergeOwnershipForPackage host allPackages package world).installed requirement
      (installedPackageOwnerId package) := by
  have named : installedPackageOwnerId package ≠ "" := by
    simp [installedPackageOwnerId, installedOwnerToken]
  simp only [mergeOwnershipForPackage]
  generalize owned_eq : (if (ownersFor host world.plugins allPackages package).isEmpty then world
    else setInstalled (world.installed.mergeInstalledOwnership package
      (ownersFor host world.plugins allPackages package) package.directRequest) world) = owned
  have first : KeysDistinct owned.installed := by
    rw [← owned_eq]
    split
    · exact distinct
    · exact (mergeInstalledOwnership_grows distinct _ _ _).distinct distinct
  have same : owned.plugins = world.plugins := by
    rw [← owned_eq]
    split <;> rfl
  rw [same]
  obtain ⟨front, back, split⟩ := List.append_of_mem required
  rw [split, List.foldl_append, List.foldl_cons]
  have reached := (foldl_merge_grows (installedPackageOwnerId package) front owned first).distinct first
  generalize front.foldl (fun world dependency => setInstalled (world.installed.mergeInstalledOwnership
    dependency [installedPackageOwnerId package] false) world) owned = middle at reached
  have merged := mergeInstalledOwnership_grows reached requirement [installedPackageOwnerId package] false
  have later := foldl_merge_grows (installedPackageOwnerId package) back (setInstalled
    (middle.installed.mergeInstalledOwnership requirement [installedPackageOwnerId package] false) middle)
    (merged.distinct reached)
  exact (mergeInstalledOwnership_owned reached false List.mem_cons_self named).grow (merged.distinct reached) later

/-- The package is owned by whoever asked for it. -/
theorem mergeOwnershipForPackage_owner {allPackages : List Package} {package : Package} {owner : String}
    (distinct : KeysDistinct world.installed)
    (member : owner ∈ ownersFor host world.plugins allPackages package) :
    Owned (mergeOwnershipForPackage host allPackages package world).installed package owner := by
  have named : owner ≠ "" := (mem_normalizeOwners.1 member).2
  have some : (ownersFor host world.plugins allPackages package).isEmpty = false := by
    cases owners : ownersFor host world.plugins allPackages package with
    | nil => simp [owners] at member
    | cons first rest => rfl
  simp only [mergeOwnershipForPackage, some, Bool.false_eq_true, if_false]
  have merged := mergeInstalledOwnership_grows distinct package
    (ownersFor host world.plugins allPackages package) package.directRequest
  have later := foldl_merge_grows (installedPackageOwnerId package) (normalizedRequirements host world.plugins
    package) (setInstalled (world.installed.mergeInstalledOwnership package
      (ownersFor host world.plugins allPackages package) package.directRequest) world) (merged.distinct distinct)
  exact (mergeInstalledOwnership_owned distinct package.directRequest member named).grow
    (merged.distinct distinct) later

theorem foldl_mergeOwnership_grows (allPackages packages : List Package) (world : World σ)
    (distinct : KeysDistinct world.installed) :
    Rewritten Grows world.installed (packages.foldl (fun world package =>
      mergeOwnershipForPackage host allPackages package world) world).installed := by
  induction packages generalizing world with
  | nil => exact .refl Grows.refl _
  | cons package packages ih =>
      have first := @mergeOwnershipForPackage_grows σ host world allPackages package distinct
      exact first.trans Grows.trans (ih _ (first.distinct distinct))

/-- What the turn of one package gives to an entry stays with it. -/
theorem foldl_mergeOwnership_owned {allPackages packages : List Package} {package target : Package}
    {owner : String} (member : package ∈ packages)
    (turn : ∀ reached : World σ, reached.plugins = world.plugins → KeysDistinct reached.installed →
      Owned (mergeOwnershipForPackage host allPackages package reached).installed target owner)
    (distinct : KeysDistinct world.installed) :
    Owned (packages.foldl (fun world package =>
      mergeOwnershipForPackage host allPackages package world) world).installed target owner := by
  induction packages generalizing world with
  | nil => simp at member
  | cons first packages ih =>
      have grown := @mergeOwnershipForPackage_grows σ host world allPackages first distinct
      have same := @mergeOwnershipForPackage_plugins σ host allPackages first world
      rcases List.mem_cons.mp member with rfl | later
      · exact (turn world rfl distinct).grow (grown.distinct distinct)
          (foldl_mergeOwnership_grows allPackages packages _ (grown.distinct distinct))
      · refine ih later (fun reached plugins => turn reached (plugins.trans same)) (grown.distinct distinct)

variable {records : List TransactionRecord} {allTaskGroups taskGroups : List TaskGroup}

/-- The packages whose owners `reconcileInstalledOwnership` writes. -/
def reconciledPackages (allTaskGroups taskGroups : List TaskGroup) (records : List TransactionRecord) :
    List Package :=
  ((records.filter fun record =>
      record.status == .success && isInstallLikeAction record.action).filterMap fun record =>
        (collectPackages taskGroups).find? (matchesRecord record)) ++
    (collectPackages allTaskGroups).filter fun package =>
      package.directRequest && isInstallLikeAction package.action &&
        !(collectPackages taskGroups).any fun candidate => samePackage candidate package

theorem reconcileInstalledOwnership_eq (tracked : tracksInstalled config = true) :
    reconcileInstalledOwnership host config allTaskGroups taskGroups records world =
      (reconciledPackages allTaskGroups taskGroups records).foldl (fun world package =>
        mergeOwnershipForPackage host (collectPackages allTaskGroups) package world) world := by
  simp only [reconcileInstalledOwnership, tracked, if_true, reconciledPackages]

theorem reconcileInstalledOwnership_requirement (tracked : tracksInstalled config = true)
    (distinct : KeysDistinct world.installed) {package requirement : Package}
    (member : package ∈ reconciledPackages allTaskGroups taskGroups records)
    (required : requirement ∈ normalizedRequirements host world.plugins package) :
    Owned (reconcileInstalledOwnership host config allTaskGroups taskGroups records world).installed
      requirement (installedPackageOwnerId package) := by
  rw [reconcileInstalledOwnership_eq tracked]
  refine foldl_mergeOwnership_owned member (fun reached plugins keys => ?_) distinct
  exact mergeOwnershipForPackage_requirement _ keys (by rwa [plugins])

theorem reconcileInstalledOwnership_owner (tracked : tracksInstalled config = true)
    (distinct : KeysDistinct world.installed) {package : Package} {owner : String}
    (member : package ∈ reconciledPackages allTaskGroups taskGroups records)
    (owns : owner ∈ ownersFor host world.plugins (collectPackages allTaskGroups) package) :
    Owned (reconcileInstalledOwnership host config allTaskGroups taskGroups records world).installed
      package owner := by
  rw [reconcileInstalledOwnership_eq tracked]
  refine foldl_mergeOwnership_owned member (fun reached plugins keys => ?_) distinct
  exact mergeOwnershipForPackage_owner keys (by rwa [plugins])

end Reconciling

section Subtracting

open InstalledStore

variable {σ : Type} {host : Host σ} {config : ExecutionConfig} {world : World σ}

/-- Requirements are read off the system of a package alone. -/
theorem normalizedRequirements_congr {plugins : σ} {left right : Package} (same : left.system = right.system) :
    normalizedRequirements host plugins left = normalizedRequirements host plugins right := by
  simp only [normalizedRequirements, same]

theorem installedPackageOwnerId_congr {left right : Package} (sameSystem : left.system = right.system)
    (sameName : left.name = right.name) : installedPackageOwnerId left = installedPackageOwnerId right := by
  simp only [installedPackageOwnerId, sameSystem, sameName]

/-- The entry of the package, if there is one, does not have this owner. -/
def Released (store : InstalledStore) (package : Package) (owner : String) : Prop :=
  ∀ entry, findEntry store package.system package.name package.version = some entry → owner ∉ entry.owners

theorem Released.shrink {before after : InstalledStore} {package : Package} {owner : String}
    (released : Released before package owner) (distinct : KeysDistinct before)
    (shrunk : Rewritten Shrinks before after) : Released after package owner := by
  intro written found member
  obtain ⟨entry, foundBefore, _, fewer⟩ := shrunk.findEntry distinct found
  exact released entry foundBefore (fewer owner member)

/-- Subtracting an owner from several entries. -/
theorem foldl_subtract_rewritten {relation : List String → List String → Prop}
    (reflexive : ∀ owners, relation owners owners)
    (transitive : ∀ first second third, relation first second → relation second third → relation first third)
    {owner : String} (subtracts : ∀ store requirement, KeysDistinct store →
      Rewritten relation store (subtractInstalledOwnership store requirement [owner]))
    (requirements : List Package) (world : World σ) (distinct : KeysDistinct world.installed) :
    Rewritten relation world.installed (requirements.foldl (fun world requirement => setInstalled
      (world.installed.subtractInstalledOwnership requirement [owner]) world) world).installed := by
  induction requirements generalizing world with
  | nil => exact .refl reflexive _
  | cons requirement requirements ih =>
      have first := subtracts world.installed requirement distinct
      exact first.trans transitive (ih (setInstalled _ world) (first.distinct distinct))

theorem foldl_subtract_shrinks (owner : String) (requirements : List Package) (world : World σ)
    (distinct : KeysDistinct world.installed) :
    Rewritten Shrinks world.installed (requirements.foldl (fun world requirement => setInstalled
      (world.installed.subtractInstalledOwnership requirement [owner]) world) world).installed :=
  foldl_subtract_rewritten Shrinks.refl Shrinks.trans
    (fun _ requirement keys => subtractInstalledOwnership_shrinks keys requirement [owner]) requirements world
    distinct

theorem foldl_subtract_released {owner : String} {requirements : List Package} {requirement : Package}
    (member : requirement ∈ requirements) (distinct : KeysDistinct world.installed) :
    Released (requirements.foldl (fun world requirement => setInstalled
      (world.installed.subtractInstalledOwnership requirement [owner]) world) world).installed
      requirement owner := by
  induction requirements generalizing world with
  | nil => simp at member
  | cons first requirements ih =>
      have shrunk := subtractInstalledOwnership_shrinks distinct first [owner]
      rcases List.mem_cons.mp member with rfl | later
      · have gone : Released (subtractInstalledOwnership world.installed requirement [owner]) requirement owner :=
          fun entry found => subtractInstalledOwnership_gone distinct List.mem_cons_self found
        exact gone.shrink (shrunk.distinct distinct)
          (foldl_subtract_shrinks owner requirements (setInstalled _ world) (shrunk.distinct distinct))
      · exact @ih (setInstalled _ world) later (shrunk.distinct distinct)

/-- The turn of one removal record. -/
def subtractTurn (host : Host σ) (world : World σ) (record : TransactionRecord) : World σ :=
  (normalizedRequirements host world.plugins (removedPackage record)).foldl
    (fun world dependency => setInstalled (world.installed.subtractInstalledOwnership dependency
      [installedPackageOwnerId (removedPackage record)]) world) world

theorem foldl_subtractTurn_rewritten {relation : List String → List String → Prop}
    (reflexive : ∀ owners, relation owners owners)
    (transitive : ∀ first second third, relation first second → relation second third → relation first third)
    (subtracts : ∀ package store requirement, KeysDistinct store →
      Rewritten relation store (subtractInstalledOwnership store requirement [installedPackageOwnerId package]))
    (removals : List TransactionRecord) (world : World σ) (distinct : KeysDistinct world.installed) :
    Rewritten relation world.installed (removals.foldl (subtractTurn host) world).installed := by
  induction removals generalizing world with
  | nil => exact .refl reflexive _
  | cons record removals ih =>
      have first := foldl_subtract_rewritten reflexive transitive (subtracts (removedPackage record))
        (normalizedRequirements host world.plugins (removedPackage record)) world distinct
      exact first.trans transitive (ih (subtractTurn host world record) (first.distinct distinct))

theorem foldl_subtractTurn_shrinks (removals : List TransactionRecord) (world : World σ)
    (distinct : KeysDistinct world.installed) :
    Rewritten Shrinks world.installed (removals.foldl (subtractTurn host) world).installed :=
  foldl_subtractTurn_rewritten Shrinks.refl Shrinks.trans
    (fun _ _ requirement keys => subtractInstalledOwnership_shrinks keys requirement _) removals world distinct

theorem foldl_subtractTurn_plugins (removals : List TransactionRecord) (world : World σ) :
    (removals.foldl (subtractTurn host) world).plugins = world.plugins := by
  induction removals generalizing world with
  | nil => rfl
  | cons record removals ih =>
      rw [List.foldl_cons, ih, subtractTurn, foldl_setInstalled_plugins]

/-- A package that was removed no longer owns what it requires. -/
theorem subtractDependencyOwnership_released (tracked : tracksInstalled config = true)
    (distinct : KeysDistinct world.installed) {records : List TransactionRecord} {record : TransactionRecord}
    (member : record ∈ records) (removal : isSuccessfulRemoval record = true) {requirement : Package}
    (required : requirement ∈ normalizedRequirements host world.plugins (removedPackage record)) :
    Released (subtractDependencyOwnership host config records world).installed requirement
      (installedPackageOwnerId (removedPackage record)) := by
  have turns : subtractDependencyOwnership host config records world =
      (records.filter isSuccessfulRemoval).foldl (subtractTurn host) world := by
    rw [subtractDependencyOwnership, if_pos tracked]
    rfl
  have listed : record ∈ records.filter isSuccessfulRemoval := List.mem_filter.mpr ⟨member, removal⟩
  obtain ⟨front, back, split⟩ := List.append_of_mem listed
  rw [turns, split, List.foldl_append, List.foldl_cons]
  have reached := (@foldl_subtractTurn_shrinks σ host front world distinct).distinct distinct
  have plugins := @foldl_subtractTurn_plugins σ host front world
  generalize front.foldl (subtractTurn host) world = middle at reached plugins
  rw [← plugins] at required
  have shrunk := foldl_subtract_shrinks (installedPackageOwnerId (removedPackage record))
    (normalizedRequirements host middle.plugins (removedPackage record)) middle reached
  have released : Released (subtractTurn host middle record).installed requirement
      (installedPackageOwnerId (removedPackage record)) := foldl_subtract_released required reached
  exact released.shrink (shrunk.distinct reached)
    (foldl_subtractTurn_shrinks back (subtractTurn host middle record) (shrunk.distinct reached))

theorem subtractDependencyOwnership_distinct (distinct : KeysDistinct world.installed)
    (records : List TransactionRecord) :
    KeysDistinct (subtractDependencyOwnership host config records world).installed := by
  unfold subtractDependencyOwnership
  split
  · exact (foldl_subtractTurn_shrinks _ world distinct).distinct distinct
  · exact distinct

/-- An entry that stands for a dependency is the entry its owners are written to. -/
theorem findEntry_of_findInstalledDependency {store : InstalledStore} (distinct : KeysDistinct store)
    {dependency : Package} {entry : InstalledEntry}
    (found : findInstalledDependency store.loadInstalledState dependency = some entry) :
    findEntry store dependency.system dependency.name dependency.version = some entry := by
  rw [findEntry_eq_some distinct]
  unfold findInstalledDependency at found
  simp only at found
  split at found
  · rename_i unversioned
    split at found
    · rename_i only filtered
      cases found
      have member : entry ∈ (loadInstalledState store).filter fun other =>
          other.system == dependency.system && other.name == dependency.name := by
        rw [filtered]
        exact List.mem_cons_self
      simp only [List.mem_filter, Bool.and_eq_true, beq_iff_eq] at member
      refine ⟨member.1, member.2.1, member.2.2, Or.inr fun other listed sameSystem sameName => ?_⟩
      have alike : other ∈ (loadInstalledState store).filter fun other =>
          other.system == dependency.system && other.name == dependency.name := by
        simp [listed, sameSystem, sameName]
      rw [filtered, List.mem_singleton] at alike
      exact ⟨Or.inl (String.isEmpty_iff.mp unversioned), by rw [alike]⟩
    · cases found
  · rename_i versioned
    have member := List.mem_of_find?_eq_some found
    simp only [List.mem_filter, Bool.and_eq_true, beq_iff_eq] at member
    have same : entry.version = dependency.version := by simpa using List.find?_some found
    exact ⟨member.1, member.2.1, member.2.2, Or.inl ⟨by simpa [String.isEmpty_iff] using versioned, same⟩⟩

theorem exists_key_foldl_queueOrphan {package : Package} (packages queued : List Package)
    (member : package ∈ packages ∨ ∃ other ∈ queued, packageIdentityKey other = packageIdentityKey package) :
    ∃ other ∈ packages.foldl queueOrphan queued, packageIdentityKey other = packageIdentityKey package := by
  induction packages generalizing queued with
  | nil => simpa using member
  | cons first packages ih =>
      refine ih (queueOrphan queued first) ?_
      have keeps : ∀ other ∈ queued, other ∈ queueOrphan queued first := by
        intro other listed
        unfold queueOrphan
        split
        · exact listed
        · exact List.mem_append_left _ listed
      rcases member with listed | ⟨other, listed, same⟩
      · rcases List.mem_cons.mp listed with rfl | later
        · right
          unfold queueOrphan
          split
          · rename_i known
            simpa using known
          · exact ⟨package, by simp, rfl⟩
        · exact Or.inl later
      · exact Or.inr ⟨other, keeps other listed, same⟩

/-- An entry that lost its last owner by a removal is queued for removal itself. -/
theorem orphanedPackages_of_released {plugins : σ} {installedState : List InstalledEntry}
    {records : List TransactionRecord} {record : TransactionRecord} {requirement : Package}
    {entry : InstalledEntry} (member : record ∈ records) (removal : isSuccessfulRemoval record = true)
    (required : requirement ∈ normalizedRequirements host plugins (removedPackage record))
    (found : findInstalledDependency installedState requirement = some entry) (free : entry.owners = []) :
    ∃ queued ∈ orphanedPackages host plugins installedState records,
      packageIdentityKey queued = packageIdentityKey { requirement with version := entry.version } := by
  have orphan : orphanOf installedState requirement =
      some { requirement with action := .remove, version := entry.version } := by
    simp [orphanOf, found, free]
  refine @exists_key_foldl_queueOrphan { requirement with action := .remove, version := entry.version } _ []
    (Or.inl ?_)
  exact List.mem_filterMap.mpr ⟨requirement, List.mem_flatMap.mpr
    ⟨record, List.mem_filter.mpr ⟨member, removal⟩, required⟩, orphan⟩

end Subtracting

section Recording

open InstalledStore

variable {σ : Type} {host : Host σ} {config : ExecutionConfig} {world : World σ}

theorem syncInstalledStateForSystem_distinct (distinct : KeysDistinct world.installed) (system : String)
    (allowEmpty : Bool) :
    KeysDistinct (syncInstalledStateForSystem host config system allowEmpty world).2.installed := by
  simp only [syncInstalledStateForSystem]
  split
  · exact distinct
  split
  · exact distinct
  split
  · exact distinct
  · exact distinct.replaced _ _ _

/-- Recording the history keeps one entry for each key. -/
theorem recordHistory_distinct (distinct : KeysDistinct world.installed) (records : List TransactionRecord) :
    KeysDistinct (recordHistory host config records world).installed := by
  have appended : KeysDistinct (appendEvents config records world).installed := by
    unfold appendEvents
    split <;> exact distinct
  have refreshed : KeysDistinct
      (refreshInstalledState host config records (appendEvents config records world)).2.installed := by
    unfold refreshInstalledState
    split
    · refine List.foldlRecOn (motive := fun found : List String × World σ => KeysDistinct found.2.installed) _ _ appended
        fun found keys system _ => ?_
      exact syncInstalledStateForSystem_distinct keys _ _
    · exact appended
  unfold recordHistory
  split
  · refine List.foldlRecOn (motive := fun world : World σ => KeysDistinct world.installed) _ _ refreshed
      fun world keys record _ => ?_
    unfold updateInstalledRecord
    split
    · exact keys.updated _ _ _ _
    · exact keys
  · exact distinct

end Recording

end ReqPack.Executor
