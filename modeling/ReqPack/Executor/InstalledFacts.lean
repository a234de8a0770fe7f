import Mathlib.Data.List.Dedup
import Mathlib.Data.List.Pairwise
import ReqPack.Executor.Installed

/-! # What the operations of the installed state change

Which entries each operation adds, keeps and takes away.  Entries of one system are
never touched by operations on another one, not even in their order.
-/

namespace ReqPack.Executor

open ReqPack.Data ReqPack.Core

section Keys

theorem sameEntryKey_iff {left right : InstalledEntry} :
    sameEntryKey left right = true ↔
      left.system = right.system ∧ left.name = right.name ∧ left.version = right.version := by
  simp [sameEntryKey, and_assoc]

theorem sameEntryKey_comm (left right : InstalledEntry) :
    sameEntryKey left right = sameEntryKey right left := by
  rw [Bool.eq_iff_iff, sameEntryKey_iff, sameEntryKey_iff]
  constructor
  · intro same
    exact ⟨same.1.symm, same.2.1.symm, same.2.2.symm⟩
  · intro same
    exact ⟨same.1.symm, same.2.1.symm, same.2.2.symm⟩

/-- The entry as it is read has the key it was written with. -/
theorem readBack_key {entry found : InstalledEntry} (read : readBack entry = some found) :
    found.system = entry.system ∧ found.name = entry.name ∧ found.version = entry.version ∧
      found.installedAt = entry.installedAt ∧ found.owners = normalizeOwners entry.owners := by
  simp only [readBack, Option.ite_none_left_eq_some, Option.some.injEq] at read
  obtain ⟨_, rfl⟩ := read
  exact ⟨rfl, rfl, rfl, rfl, rfl⟩

theorem readBack_isSome {entry : InstalledEntry} (filed : entry.system ≠ "") (named : entry.name ≠ "") :
    ∃ found, readBack entry = some found := by
  unfold readBack
  rw [if_neg (by simp [filed, named])]
  exact ⟨_, rfl⟩

theorem readBack_named {entry found : InstalledEntry} (read : readBack entry = some found) :
    entry.system ≠ "" ∧ entry.name ≠ "" := by
  simp only [readBack, Option.ite_none_left_eq_some, Bool.or_eq_true, String.isEmpty_iff, not_or] at read
  exact ⟨read.1.2, read.1.1⟩

end Keys

section Owners

theorem mem_normalizeOwners {owners : List String} {owner : String} :
    owner ∈ normalizeOwners owners ↔ owner ∈ owners ∧ owner ≠ "" := by
  rw [normalizeOwners, (stableSort_perm _ _).mem_iff]
  simp

end Owners

namespace InstalledStore

/-- No two entries have the same system, name and version, as in any database. -/
def KeysDistinct (store : InstalledStore) : Prop :=
  store.Pairwise fun left right => sameEntryKey left right = false

theorem KeysDistinct.eq_of_sameKey {store : InstalledStore} (distinct : KeysDistinct store)
    {left right : InstalledEntry} (leftMember : left ∈ store) (rightMember : right ∈ store)
    (same : sameEntryKey left right = true) : left = right := by
  by_contra apart
  have symmetric : Std.Symm fun left right : InstalledEntry => sameEntryKey left right = false :=
    ⟨fun left right different => by rwa [sameEntryKey_comm] at different⟩
  have different := List.Pairwise.forall distinct leftMember rightMember apart
  simp [same] at different

/-- The entries of one system, in their order. -/
def ofSystem (store : InstalledStore) (system : String) : InstalledStore :=
  store.filter fun entry => entry.system == system

variable {store : InstalledStore} {system : String} {entry : InstalledEntry}

theorem mem_ofSystem : entry ∈ ofSystem store system ↔ entry ∈ store ∧ entry.system = system := by
  simp [ofSystem]

theorem mem_put {written : InstalledEntry} :
    entry ∈ put store written ↔
      entry = written ∨ (entry ∈ store ∧ sameEntryKey entry written = false) := by
  simp [put, List.mem_orderedInsert]

theorem filter_orderedInsert_of_not {α : Type} {relation : α → α → Prop} [DecidableRel relation] {keep : α → Bool}
    {value : α} (dropped : keep value = false) (values : List α) :
    (values.orderedInsert relation value).filter keep = values.filter keep := by
  induction values with
  | nil => simp [dropped]
  | cons head tail ih =>
      rw [List.orderedInsert_cons]
      split
      · simp [dropped]
      · simp [List.filter_cons, ih]

/-- Writing an entry of another system leaves the entries of a system alone. -/
theorem ofSystem_put_of_ne {written : InstalledEntry} (apart : written.system ≠ system) :
    ofSystem (put store written) system = ofSystem store system := by
  rw [ofSystem, put, filter_orderedInsert_of_not (by simpa using apart), List.filter_filter]
  apply List.filter_congr
  intro other _
  by_cases same : other.system = system
  · have different : sameEntryKey other written = false := by
      rw [Bool.eq_false_iff, Ne, sameEntryKey_iff]
      exact fun key => apart (key.1.symm.trans same)
    simp [different]
  · simp [same]

theorem ofSystem_foldl_put_of_ne {α : Type} {entryOf : α → InstalledEntry} {values : List α}
    (apart : ∀ value ∈ values, (entryOf value).system ≠ system) (store : InstalledStore) :
    ofSystem (values.foldl (fun store value => put store (entryOf value)) store) system =
      ofSystem store system := by
  induction values generalizing store with
  | nil => rfl
  | cons value values ih =>
      rw [List.foldl_cons, ih fun later member => apart later (List.mem_cons_of_mem _ member)]
      exact ofSystem_put_of_ne (apart value List.mem_cons_self)

theorem ofSystem_filter_of_kept {keep : InstalledEntry → Bool}
    (kept : ∀ other ∈ store, other.system = system → keep other = true) :
    ofSystem (store.filter keep) system = ofSystem store system := by
  rw [ofSystem, List.filter_filter]
  apply List.filter_congr
  intro other member
  by_cases same : other.system = system
  · simp [same, kept other member same]
  · simp [same]

theorem ofSystem_removeEntries_of_ne {other name version : String} (apart : other ≠ system) :
    ofSystem (removeEntries store other name version) system = ofSystem store system := by
  apply ofSystem_filter_of_kept
  intro entry _ same
  have different : (entry.system == other) = false := by
    rw [beq_eq_false_iff_ne, same]
    exact Ne.symm apart
  simp [different]

theorem mem_removeEntries {name version : String} :
    entry ∈ removeEntries store system name version ↔
      entry ∈ store ∧ ¬ (entry.system = system ∧ entry.name = name ∧ (version = "" ∨ entry.version = version)) := by
  simp only [removeEntries, List.mem_filter, Bool.not_eq_true', Bool.eq_false_iff, Ne, Bool.and_eq_true,
    Bool.or_eq_true, beq_iff_eq, String.isEmpty_iff, and_assoc]

theorem ofSystem_replaceInstalledState_of_ne {other syncedAt : String} {listed : List InstalledEntry}
    (apart : other ≠ system) :
    ofSystem (replaceInstalledState store other syncedAt listed) system = ofSystem store system := by
  rw [replaceInstalledState, ofSystem_foldl_put_of_ne fun _ _ => apart]
  apply ofSystem_filter_of_kept
  intro entry _ same
  simpa [same] using Ne.symm apart

theorem ofSystem_updateInstalledState_of_ne {action : ActionType} {other name version : String}
    (apart : other ≠ system) :
    ofSystem (updateInstalledState store action other name version) system = ofSystem store system := by
  unfold updateInstalledState
  split
  · exact ofSystem_removeEntries_of_ne apart
  · split
    · rw [ofSystem_put_of_ne apart]
      exact ofSystem_removeEntries_of_ne apart
    · split
      · exact ofSystem_put_of_ne apart
      · rfl

/-- Where entries with the same key are the same, a loop of writes leaves all of them. -/
theorem mem_foldl_put {α : Type} {entryOf : α → InstalledEntry} {values : List α}
    (agree : ∀ left ∈ values, ∀ right ∈ values,
      sameEntryKey (entryOf left) (entryOf right) = true → entryOf left = entryOf right) :
    entry ∈ values.foldl (fun store value => put store (entryOf value)) store ↔
      (∃ value ∈ values, entry = entryOf value) ∨
        (entry ∈ store ∧ ∀ value ∈ values, sameEntryKey entry (entryOf value) = false) := by
  induction values generalizing store with
  | nil => simp
  | cons first values ih =>
      have rest := @ih (put store (entryOf first)) fun left leftMember right rightMember =>
        agree left (List.mem_cons_of_mem _ leftMember) right (List.mem_cons_of_mem _ rightMember)
      rw [List.foldl_cons, rest, mem_put]
      constructor
      · intro found
        rcases found with ⟨value, member, same⟩ | ⟨rfl | ⟨old, apart⟩, others⟩
        · exact Or.inl ⟨value, List.mem_cons_of_mem _ member, same⟩
        · exact Or.inl ⟨first, List.mem_cons_self, rfl⟩
        · refine Or.inr ⟨old, fun value member => ?_⟩
          rcases List.mem_cons.mp member with rfl | later
          · exact apart
          · exact others value later
      · intro found
        rcases found with ⟨value, member, rfl⟩ | ⟨old, others⟩
        · rcases List.mem_cons.mp member with rfl | later
          · by_cases again : ∃ later ∈ values, sameEntryKey (entryOf value) (entryOf later) = true
            · obtain ⟨later, listed, same⟩ := again
              exact Or.inl ⟨later, listed, agree value member later (List.mem_cons_of_mem _ listed) same⟩
            · refine Or.inr ⟨Or.inl rfl, fun later listed => ?_⟩
              rw [Bool.eq_false_iff]
              exact fun same => again ⟨later, listed, same⟩
          · exact Or.inl ⟨value, later, rfl⟩
        · exact Or.inr ⟨Or.inr ⟨old, others first List.mem_cons_self⟩,
            fun value member => others value (List.mem_cons_of_mem _ member)⟩

theorem mem_loadInstalledState {found : InstalledEntry} :
    found ∈ loadInstalledState store ↔ ∃ entry ∈ store, readBack entry = some found := by
  simp [loadInstalledState]

end InstalledStore

end ReqPack.Executor
