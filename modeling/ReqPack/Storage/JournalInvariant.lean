import Mathlib.Data.List.Induction
import ReqPack.Storage.JournalDatabase

/-! # What the journal on disk always satisfies

Runs can be marked, committed and deleted by any id, active or not.  Through all
of it the active-run key names a record that can be read, and no item is left
behind by its run.
-/

namespace ReqPack.Storage

open ReqPack.Data
open ReqPack.Data.Octets

variable {α : Type} [Alphabet α]

section Keys

theorem symbol_not_mem_digits {base number : Nat} (small : 1 < base) (bound : base ≤ 16)
    {character : Char} (ascii : character.toNat < 128)
    (apart : ∀ digit < 16, digit.digitChar.toNat < 128 ∧ digit.digitChar ≠ character) :
    (Alphabet.symbol character : α) ∉ (Nat.toDigits base number).map Alphabet.symbol := by
  induction number using Nat.strongRecOn with
  | ind number ih =>
      have differs : ∀ digit < 16, (Alphabet.symbol character : α) ≠ Alphabet.symbol digit.digitChar :=
        fun digit low => symbol_ne ascii (apart digit low).1 (Ne.symm (apart digit low).2)
      rw [Nat.toDigits_eq_if small]
      split
      · rename_i low
        simpa using differs number (by omega)
      · rename_i high
        have smaller : number / base < number := Nat.div_lt_self (by omega) small
        have digit : number % base < base := Nat.mod_lt _ (by omega)
        simp only [List.map_append, List.map_cons, List.map_nil, List.mem_append, List.mem_singleton,
          not_or]
        exact ⟨ih _ smaller, differs _ (by omega)⟩

theorem digitChar_ne_colon : ∀ digit < 16, digit.digitChar.toNat < 128 ∧ digit.digitChar ≠ ':' := by
  decide

theorem colon_not_mem_itemId (package : StoredPackage α) : colon ∉ itemIdForPackage package :=
  symbol_not_mem_digits (by decide) (by decide) (by decide) digitChar_ne_colon

theorem itemId_ne_nil (package : StoredPackage α) : itemIdForPackage package ≠ [] := by
  simp [itemIdForPackage]

theorem colon_not_mem_nat (number : Nat) : (colon : α) ∉ text (toString number) := by
  rw [text, Nat.toString_eq_ofList_toDigits, String.toList_ofList]
  exact symbol_not_mem_digits (by decide) (by decide) (by decide) digitChar_ne_colon

theorem toString_negSucc (number : Nat) :
    (toString (Int.negSucc number)).toList = '-' :: (toString (number + 1)).toList := by
  simp [Int.toString_eq_repr, Int.repr_eq_if]

theorem colon_not_mem_nowTimestamp (clock : Int) : (colon : α) ∉ nowTimestamp clock := by
  cases clock with
  | ofNat number => exact colon_not_mem_nat number
  | negSucc number =>
      have sign : (colon : α) ≠ Alphabet.symbol '-' := symbol_ne (by decide) (by decide) (by decide)
      have digits := @colon_not_mem_nat α _ (number + 1)
      rw [nowTimestamp, text, toString_negSucc, List.map_cons, List.mem_cons, not_or]
      exact ⟨sign, digits⟩

theorem nowTimestamp_ne_nil (clock : Int) : (nowTimestamp clock : List α) ≠ [] := by
  cases clock with
  | ofNat number => simp [nowTimestamp, text, Int.toString_eq_repr, Int.repr_eq_if]
  | negSucc number =>
      rw [nowTimestamp, text, toString_negSucc]
      simp

theorem newRunId_plain (clock : Int) (packages : List (StoredPackage α)) :
    newRunId clock packages ≠ [] ∧ colon ∉ newRunId clock packages := by
  have dash : (colon : α) ∉ text "-" := symbol_not_mem_text (by decide) (by decide) (by decide)
  simp only [newRunId, ne_eq, List.append_eq_nil_iff, List.mem_append, not_and, not_or]
  exact ⟨fun front => absurd front.1 (nowTimestamp_ne_nil clock), ⟨colon_not_mem_nowTimestamp clock, dash⟩,
    colon_not_mem_nat _⟩

theorem runKey_inj {left right : List α} : runKey left = runKey right ↔ left = right := by
  simp [runKey]

theorem activeRunKey_ne_runKey (runId : List α) : activeRunKey ≠ runKey runId := by
  have apart : (Alphabet.symbol 'm' : α) ≠ Alphabet.symbol 'r' := symbol_ne (by decide) (by decide) (by decide)
  simp [activeRunKey, runKey, text, apart]

def isItemKey (key : List α) : Bool := (text "item:").isPrefixOf key

theorem not_isItemKey_activeRunKey : isItemKey (activeRunKey : List α) = false := by
  have apart : (Alphabet.symbol 'i' : α) ≠ Alphabet.symbol 'm' := symbol_ne (by decide) (by decide) (by decide)
  rw [isItemKey, Bool.eq_false_iff, Ne, List.isPrefixOf_iff_prefix]
  simp [activeRunKey, text, List.cons_prefix_cons, apart]

theorem not_isItemKey_runKey (runId : List α) : isItemKey (runKey runId) = false := by
  have apart : (Alphabet.symbol 'i' : α) ≠ Alphabet.symbol 'r' := symbol_ne (by decide) (by decide) (by decide)
  rw [isItemKey, Bool.eq_false_iff, Ne, List.isPrefixOf_iff_prefix]
  simp [runKey, text, List.cons_prefix_cons, apart]

theorem itemPrefix_ne_nil (runId : List α) : itemPrefix runId ≠ [] := by simp [itemPrefix]

theorem isItemKey_of_itemPrefix {runId key : List α} (starts : itemPrefix runId <+: key) :
    isItemKey key = true :=
  List.isPrefixOf_iff_prefix.mpr ((List.prefix_append _ _).trans starts)

/-- An item key with one colon behind the run id. -/
def ItemOf (runId itemId key : List α) : Prop :=
  key = itemPrefix runId ++ itemId ∧ runId ≠ [] ∧ itemId ≠ [] ∧ colon ∉ runId ∧ colon ∉ itemId

theorem ItemOf.parse {runId itemId key : List α} (item : ItemOf runId itemId key) :
    parseItemKey key = some (runId, itemId) := by
  obtain ⟨rfl, named, present, plain, _⟩ := item
  have starts : (text "item:").isPrefixOf (itemPrefix runId ++ itemId) = true :=
    isItemKey_of_itemPrefix (List.prefix_append _ _)
  have behind : (itemPrefix runId ++ itemId).drop 5 = runId ++ colon :: itemId := by
    simp [itemPrefix, text]
  rw [parseItemKey, if_pos starts, behind, cutAt_append plain]
  simp [named, present]

/-- Scanning for the items of a run meets no item of another run. -/
theorem ItemOf.run_unique {runId itemId key other : List α} (item : ItemOf runId itemId key)
    (starts : itemPrefix other <+: key) : other = runId := by
  obtain ⟨rfl, _, _, plain, single⟩ := item
  simp only [itemPrefix, List.append_assoc, List.prefix_append_right_inj, List.singleton_append] at starts
  by_cases inside : colon ∈ other
  · -- the run id asked for would put a second colon into the key
    obtain ⟨front, back, rfl⟩ := List.append_of_mem inside
    obtain ⟨rest, same⟩ := starts
    have counts := congrArg (List.count colon) same
    simp only [List.count_append, List.count_cons_self, List.count_nil,
      List.count_eq_zero_of_not_mem plain, List.count_eq_zero_of_not_mem single] at counts
    omega
  · exact (leads_separated_iff inside plain itemId).mp starts

theorem itemOf_itemKey {runId : List α} (named : runId ≠ []) (plain : colon ∉ runId)
    (package : StoredPackage α) : ItemOf runId (itemIdForPackage package) (itemKey runId package) :=
  ⟨rfl, named, itemId_ne_nil package, plain, colon_not_mem_itemId package⟩

end Keys

section Frames

variable {database : Database α}

/-- Writing an item touches no run. -/
theorem get_runKey_putItem (runId payload : List α) (package : StoredPackage α) (other : List α) :
    (database.put (itemKey runId package) payload).get (runKey other) = database.get (runKey other) := by
  rw [KeyValue.get_put, if_neg]
  intro same
  have isItem : isItemKey (itemKey runId package) = true :=
    isItemKey_of_itemPrefix (List.prefix_append _ _)
  rw [← same, not_isItemKey_runKey] at isItem
  cases isItem

theorem get_activeRunKey_putItem (runId payload : List α) (package : StoredPackage α) :
    (database.put (itemKey runId package) payload).get activeRunKey = database.get activeRunKey := by
  rw [KeyValue.get_put, if_neg]
  intro same
  have isItem : isItemKey (itemKey runId package) = true :=
    isItemKey_of_itemPrefix (List.prefix_append _ _)
  rw [← same, not_isItemKey_activeRunKey] at isItem
  cases isItem

end Frames

/-- The record under the key of a run, as far as it can be read. -/
def readRun (database : Database α) (runId : List α) : Option (TransactionRunRecord α) :=
  (database.get (runKey runId)).bind (deserializeRun runId)

/-- The active-run key, the runs and the items fit together; `allowed` says which states
the active run may have. -/
structure JournalConsistent (allowed : List α → Prop) (database : Database α) : Prop where
  items : ∀ key payload, database.get key = some payload → isItemKey key = true →
    ∃ runId itemId, ItemOf runId itemId key ∧ ∃ record, database.get (runKey runId) = some record
  runs : ∀ runId payload, database.get (runKey runId) = some payload → runId ≠ [] →
    ∃ run, deserializeRun runId payload = some run
  active : ∀ runId, database.get activeRunKey = some runId →
    runId ≠ [] ∧ ∃ run, readRun database runId = some run ∧ allowed run.state

section Steps

variable {allowed : List α → Prop} {database : Database α}

theorem JournalConsistent.putItem (consistent : JournalConsistent allowed database) {runId payload : List α}
    (named : runId ≠ []) (plain : colon ∉ runId)
    (present : ∃ record, database.get (runKey runId) = some record) (package : StoredPackage α) :
    JournalConsistent allowed (database.put (itemKey runId package) payload) := by
  constructor
  · intro key found stored item
    rw [KeyValue.get_put] at stored
    split at stored
    · rename_i same
      subst same
      refine ⟨runId, itemIdForPackage package, itemOf_itemKey named plain package, ?_⟩
      rw [get_runKey_putItem]
      exact present
    · obtain ⟨owner, itemId, belongs, record⟩ := consistent.items key found stored item
      refine ⟨owner, itemId, belongs, ?_⟩
      rw [get_runKey_putItem]
      exact record
  · intro other found stored
    rw [get_runKey_putItem] at stored
    exact consistent.runs other found stored
  · intro other stored
    rw [get_activeRunKey_putItem] at stored
    obtain ⟨otherNamed, run, read, fine⟩ := consistent.active other stored
    refine ⟨otherNamed, run, ?_, fine⟩
    rw [readRun, get_runKey_putItem]
    exact read

/-- Writing a record that can be read; the active run has to be left in an allowed state. -/
theorem JournalConsistent.putRun (consistent : JournalConsistent allowed database)
    {runId : List α} {run : TransactionRunRecord α} (stated : run.state ≠ []) (created : run.createdAt ≠ [])
    (updated : run.updatedAt ≠ [])
    (fine : database.get activeRunKey = some runId → allowed run.state) :
    JournalConsistent allowed (database.put (runKey runId) (serializeRun run)) := by
  have sameActive : (database.put (runKey runId) (serializeRun run)).get activeRunKey =
      database.get activeRunKey := by
    rw [KeyValue.get_put, if_neg (activeRunKey_ne_runKey runId)]
  have kept : ∀ other, (∃ record, database.get (runKey other) = some record) →
      ∃ record, (database.put (runKey runId) (serializeRun run)).get (runKey other) = some record := by
    intro other present
    rw [KeyValue.get_put]
    split
    · exact ⟨_, rfl⟩
    · exact present
  constructor
  · intro key found stored item
    rw [KeyValue.get_put] at stored
    split at stored
    · rename_i same
      rw [same, not_isItemKey_runKey] at item
      cases item
    · obtain ⟨owner, itemId, belongs, record⟩ := consistent.items key found stored item
      exact ⟨owner, itemId, belongs, kept owner record⟩
  · intro other found stored named
    rw [KeyValue.get_put] at stored
    split at stored
    · cases stored
      obtain ⟨flags, read⟩ := deserialize_serializeRun named stated created updated
      exact ⟨_, read⟩
    · exact consistent.runs other found stored named
  · intro other stored
    rw [sameActive] at stored
    obtain ⟨named, found, read, good⟩ := consistent.active other stored
    refine ⟨named, ?_⟩
    by_cases same : other = runId
    · subst same
      obtain ⟨flags, reads⟩ := deserialize_serializeRun named stated created updated
      exact ⟨{ run with id := other, flags := flags },
        by rw [readRun, KeyValue.get_put, if_pos rfl, Option.bind_some, reads], fine stored⟩
    · refine ⟨found, ?_, good⟩
      rw [readRun, KeyValue.get_put, if_neg (fun equal => same (runKey_inj.1 equal))]
      exact read

theorem JournalConsistent.clearActive (consistent : JournalConsistent allowed database) (runId : List α) :
    JournalConsistent allowed (Journal.clearActive database runId) := by
  unfold Journal.clearActive
  split
  · have sameRun : ∀ other, (database.erase activeRunKey).get (runKey other) = database.get (runKey other) := by
      intro other
      rw [KeyValue.get_erase, if_neg (activeRunKey_ne_runKey other).symm]
    constructor
    · intro key found stored item
      rw [KeyValue.get_erase] at stored
      split at stored
      · cases stored
      · obtain ⟨owner, itemId, belongs, record⟩ := consistent.items key found stored item
        exact ⟨owner, itemId, belongs, by rw [sameRun]; exact record⟩
    · intro other found stored
      rw [sameRun] at stored
      exact consistent.runs other found stored
    · intro other stored
      rw [KeyValue.get_erase, if_pos rfl] at stored
      cases stored
  · exact consistent

/-- Items written into a run that has a record. -/
theorem JournalConsistent.foldl_putItem (items : List (TransactionItemRecord α)) {database : Database α}
    (consistent : JournalConsistent allowed database) {runId : List α} (named : runId ≠ [])
    (plain : colon ∉ runId) (present : ∃ record, database.get (runKey runId) = some record) :
    JournalConsistent allowed (items.foldl (Journal.putItem runId) database) := by
  induction items generalizing database with
  | nil => exact consistent
  | cons item items ih =>
      have kept : JournalConsistent allowed (Journal.putItem runId database item) :=
        consistent.putItem named plain present item.package
      refine ih kept ?_
      rw [Journal.putItem, get_runKey_putItem]
      exact present

/-- The first two writes of `createRun`. -/
theorem JournalConsistent.openRun (consistent : JournalConsistent allowed database) {runId : List α}
    (run : TransactionRunRecord α) (named : runId ≠ []) (stated : run.state ≠ [])
    (created : run.createdAt ≠ []) (updated : run.updatedAt ≠ []) (fine : allowed run.state) :
    JournalConsistent allowed ((database.put activeRunKey runId).put (runKey runId) (serializeRun run)) := by
  obtain ⟨flags, reads⟩ := deserialize_serializeRun named stated created updated
  constructor
  · intro key found stored item
    rw [KeyValue.get_put, KeyValue.get_put] at stored
    split at stored
    · rename_i same
      rw [same, not_isItemKey_runKey] at item
      cases item
    · split at stored
      · rename_i same
        rw [same, not_isItemKey_activeRunKey] at item
        cases item
      · obtain ⟨owner, itemId, belongs, record, present⟩ := consistent.items key found stored item
        refine ⟨owner, itemId, belongs, ?_⟩
        rw [KeyValue.get_put, KeyValue.get_put, if_neg (activeRunKey_ne_runKey owner).symm]
        split
        · exact ⟨_, rfl⟩
        · exact ⟨record, present⟩
  · intro other found stored otherNamed
    rw [KeyValue.get_put, KeyValue.get_put, if_neg (activeRunKey_ne_runKey other).symm] at stored
    split at stored
    · rename_i same
      cases stored
      rw [runKey_inj.1 same]
      exact ⟨_, reads⟩
    · exact consistent.runs other found stored otherNamed
  · intro other stored
    rw [KeyValue.get_put, if_neg (activeRunKey_ne_runKey runId), KeyValue.get_put, if_pos rfl,
      Option.some.injEq] at stored
    subst stored
    exact ⟨named, { run with id := runId, flags := flags },
      by rw [readRun, KeyValue.get_put, if_pos rfl, Option.bind_some, reads], fine⟩

theorem JournalConsistent.createRun (consistent : JournalConsistent allowed database)
    (openAllowed : allowed (text "open")) (clock : Int) (packages : List (StoredPackage α))
    (flags : List (List α)) :
    JournalConsistent allowed (Journal.createRun database clock packages flags).2 := by
  unfold Journal.createRun
  split
  · exact consistent
  · obtain ⟨named, plain⟩ := newRunId_plain clock packages
    have opened := consistent.openRun
      { id := newRunId clock packages, state := text "open", createdAt := nowTimestamp clock,
        updatedAt := nowTimestamp clock, flags := flags } named (by simp [text])
      (nowTimestamp_ne_nil clock) (nowTimestamp_ne_nil clock) openAllowed
    exact opened.foldl_putItem _ named plain ⟨_, by rw [KeyValue.get_put, if_pos rfl]⟩

theorem JournalConsistent.updateItemStatus (consistent : JournalConsistent allowed database)
    {runId status errorMessage : List α} {package : StoredPackage α} {updated : Database α}
    (done : Journal.updateItemStatus runId status errorMessage database package = some updated) :
    JournalConsistent allowed updated := by
  simp only [Journal.updateItemStatus, Option.bind_eq_bind, Option.bind_eq_some_iff,
    Option.some.injEq] at done
  obtain ⟨payload, stored, item, _, rfl⟩ := done
  have starts : itemPrefix runId <+: itemKey runId package := List.prefix_append _ _
  obtain ⟨owner, itemId, belongs, present⟩ := consistent.items _ payload stored (isItemKey_of_itemPrefix starts)
  have same := belongs.run_unique starts
  subst same
  exact consistent.putItem belongs.2.1 belongs.2.2.2.1 present package

theorem JournalConsistent.foldlM_updateItemStatus {packages : List (StoredPackage α)}
    {database updated : Database α} (consistent : JournalConsistent allowed database)
    {runId status errorMessage : List α}
    (done : packages.foldlM (Journal.updateItemStatus runId status errorMessage) database = some updated) :
    JournalConsistent allowed updated := by
  induction packages generalizing database with
  | nil =>
      cases done
      exact consistent
  | cons package packages ih =>
      simp only [List.foldlM_cons, Option.bind_eq_bind, Option.bind_eq_some_iff] at done
      obtain ⟨next, first, rest⟩ := done
      exact ih (consistent.updateItemStatus first) rest

/-- Rewriting the record of a run that was read. -/
theorem JournalConsistent.rewriteRun (consistent : JournalConsistent allowed database) {runId payload : List α}
    {run changed : TransactionRunRecord α} (stored : database.get (runKey runId) = some payload)
    (read : deserializeRun runId payload = some run) (stated : changed.state ≠ [])
    (created : changed.createdAt = run.createdAt) (updated : changed.updatedAt ≠ [])
    (fine : allowed run.state → allowed changed.state) :
    JournalConsistent allowed (database.put (runKey runId) (serializeRun changed)) := by
  refine consistent.putRun stated (created ▸ (deserializeRun_stated read).2.1) updated fun isActive => ?_
  obtain ⟨_, found, reads, good⟩ := consistent.active runId isActive
  rw [readRun, stored, Option.bind_some, read, Option.some.injEq] at reads
  exact fine (reads ▸ good)

theorem JournalConsistent.updateItemsStatus (consistent : JournalConsistent allowed database) (clock : Int)
    (runId : List α) (packages : List (StoredPackage α)) (status errorMessage : List α) :
    JournalConsistent allowed
      (Journal.updateItemsStatus database clock runId packages status errorMessage) := by
  unfold Journal.updateItemsStatus
  split
  · exact consistent
  · rename_i updated done
    have kept := consistent.foldlM_updateItemStatus done
    unfold Journal.touchRun
    split
    · exact kept
    · rename_i payload stored
      split
      · exact kept
      · rename_i run read
        exact kept.rewriteRun stored read (deserializeRun_stated read).1 rfl (nowTimestamp_ne_nil clock)
          fun fine => fine

theorem JournalConsistent.markRunState (consistent : JournalConsistent allowed database) (clock : Int)
    (runId : List α) {state : List α} (stated : state ≠ []) (fine : allowed state) :
    JournalConsistent allowed (Journal.markRunState database clock runId state) := by
  unfold Journal.markRunState
  split
  · exact consistent
  · rename_i payload stored
    split
    · exact consistent
    · rename_i run read
      exact consistent.rewriteRun stored read stated rfl (nowTimestamp_ne_nil clock) fun _ => fine

/-- Only what is stored under the keys matters. -/
theorem JournalConsistent.congr (consistent : JournalConsistent allowed database) {after : Database α}
    (same : ∀ key, after.get key = database.get key) : JournalConsistent allowed after := by
  constructor
  · intro key payload stored item
    simp only [same] at stored ⊢
    exact consistent.items key payload stored item
  · intro runId payload stored
    rw [same] at stored
    exact consistent.runs runId payload stored
  · intro runId stored
    simp only [readRun, same] at stored ⊢
    exact consistent.active runId stored

/-- Whether the active-run key goes before or behind the record is all the same. -/
theorem get_clearActive_putRun (runId payload key : List α) :
    (Journal.clearActive (database.put (runKey runId) payload) runId).get key =
      ((Journal.clearActive database runId).put (runKey runId) payload).get key := by
  have sameActive : (database.put (runKey runId) payload).get activeRunKey = database.get activeRunKey := by
    rw [KeyValue.get_put, if_neg (activeRunKey_ne_runKey runId)]
  unfold Journal.clearActive
  rw [sameActive]
  split
  · simp only [KeyValue.get_erase, KeyValue.get_put]
    by_cases isActive : key = activeRunKey
    · simp [isActive, activeRunKey_ne_runKey]
    · simp [isActive]
  · rfl

theorem clearActive_not_active (database : Database α) (runId : List α) :
    (Journal.clearActive database runId).get activeRunKey ≠ some runId := by
  unfold Journal.clearActive
  split
  · rw [KeyValue.get_erase, if_pos rfl]
    simp
  · rename_i other
    exact other

theorem committedRun_stated (database : Database α) (clock : Int) (runId : List α) :
    (Journal.committedRun database clock runId).state ≠ [] ∧
      (Journal.committedRun database clock runId).createdAt ≠ [] ∧
      (Journal.committedRun database clock runId).updatedAt ≠ [] := by
  unfold Journal.committedRun
  split
  · exact ⟨by simp [text], nowTimestamp_ne_nil clock, nowTimestamp_ne_nil clock⟩
  · rename_i run found
    obtain ⟨payload, _, read⟩ := Option.bind_eq_some_iff.mp found
    exact ⟨by simp [text], (deserializeRun_stated read).2.1, nowTimestamp_ne_nil clock⟩

/-- The items a run is found to have belong to it. -/
theorem JournalConsistent.putRunItems (consistent : JournalConsistent allowed database) (runId : List α)
    (change : TransactionItemRecord α → TransactionItemRecord α) :
    JournalConsistent allowed
      (((Journal.getRunItems database runId).map change).foldl (Journal.putItem runId) database) := by
  cases found : Journal.getRunItems database runId with
  | nil => exact consistent
  | cons item items =>
      have listed : item ∈ Journal.getRunItems database runId := by simp [found]
      simp only [Journal.getRunItems, List.mem_insertionSort, List.mem_filterMap] at listed
      obtain ⟨entry, scanned, _⟩ := listed
      obtain ⟨stored, starts⟩ := (KeyValue.mem_scan (itemPrefix_ne_nil runId)).mp scanned
      obtain ⟨owner, itemId, belongs, present⟩ :=
        consistent.items entry.1 entry.2 stored (isItemKey_of_itemPrefix starts)
      have same := belongs.run_unique starts
      subst same
      exact consistent.foldl_putItem _ belongs.2.1 belongs.2.2.2.1 present

theorem JournalConsistent.markRunCommitted (consistent : JournalConsistent allowed database) (clock : Int)
    (runId : List α) : JournalConsistent allowed (Journal.markRunCommitted database clock runId) := by
  have written := consistent.putRunItems runId
    fun item => { item with status := text "committed", errorMessage := [] }
  obtain ⟨stated, created, updated⟩ := committedRun_stated (((Journal.getRunItems database runId).map
    fun item => { item with status := text "committed", errorMessage := [] }).foldl
      (Journal.putItem runId) database) clock runId
  refine JournalConsistent.congr ?_ (get_clearActive_putRun runId _)
  exact (written.clearActive runId).putRun stated created updated
    fun isActive => absurd isActive (clearActive_not_active _ runId)

theorem get_eraseRun (keys : List (List α)) (runId key : List α) :
    ((database.eraseKeys keys).erase (runKey runId)).get key =
      if key = runKey runId ∨ key ∈ keys then none else database.get key := by
  rw [KeyValue.get_erase, KeyValue.get_eraseKeys]
  by_cases isRun : key = runKey runId
  · simp [isRun]
  · simp [isRun]

/-- Erasing a run that is not active together with all its items. -/
theorem JournalConsistent.eraseRun (consistent : JournalConsistent allowed database) {keys : List (List α)}
    {runId : List α}
    (scanned : ∀ key, key ∈ keys ↔ (∃ payload, database.get key = some payload) ∧ itemPrefix runId <+: key)
    (notActive : database.get activeRunKey ≠ some runId) :
    JournalConsistent allowed ((database.eraseKeys keys).erase (runKey runId)) := by
  have runKept : ∀ other, other ≠ runId →
      ((database.eraseKeys keys).erase (runKey runId)).get (runKey other) = database.get (runKey other) := by
    intro other apart
    rw [get_eraseRun, if_neg]
    rintro (same | listed)
    · exact apart (runKey_inj.1 same)
    · have item := isItemKey_of_itemPrefix ((scanned _).mp listed).2
      rw [not_isItemKey_runKey] at item
      cases item
  have stays : ∀ {key payload : List α},
      ((database.eraseKeys keys).erase (runKey runId)).get key = some payload →
        database.get key = some payload ∧ key ≠ runKey runId ∧ key ∉ keys := by
    intro key payload stored
    rw [get_eraseRun] at stored
    split at stored
    · cases stored
    · rename_i other
      rw [not_or] at other
      exact ⟨stored, other⟩
  constructor
  · intro key payload stored item
    obtain ⟨before, _, unlisted⟩ := stays stored
    obtain ⟨owner, itemId, belongs, record⟩ := consistent.items key payload before item
    have apart : owner ≠ runId := by
      rintro rfl
      exact unlisted ((scanned key).mpr ⟨⟨payload, before⟩, belongs.1 ▸ List.prefix_append _ _⟩)
    refine ⟨owner, itemId, belongs, ?_⟩
    rw [runKept owner apart]
    exact record
  · intro other payload stored
    exact consistent.runs other payload (stays stored).1
  · intro other stored
    obtain ⟨before, _⟩ := stays stored
    obtain ⟨named, run, read, fine⟩ := consistent.active other before
    have apart : other ≠ runId := by
      rintro rfl
      exact notActive before
    refine ⟨named, run, ?_, fine⟩
    rw [readRun, runKept other apart]
    exact read

theorem get_clearActive_of_ne {runId key : List α} (apart : key ≠ activeRunKey) :
    (Journal.clearActive database runId).get key = database.get key := by
  unfold Journal.clearActive
  split
  · rw [KeyValue.get_erase, if_neg apart]
  · rfl

theorem JournalConsistent.deleteRun (consistent : JournalConsistent allowed database) (runId : List α) :
    JournalConsistent allowed (Journal.deleteRun database runId) := by
  have itemApart : ∀ {key : List α}, itemPrefix runId <+: key → key ≠ activeRunKey := by
    intro key starts same
    have item := isItemKey_of_itemPrefix starts
    rw [same, not_isItemKey_activeRunKey] at item
    cases item
  unfold Journal.deleteRun
  split
  · have scanned : ∀ key, key ∈ database.keysFrom (itemPrefix runId) ↔
        (∃ payload, (Journal.clearActive database runId).get key = some payload) ∧
          itemPrefix runId <+: key := by
      intro key
      rw [KeyValue.mem_keysFrom (itemPrefix_ne_nil runId)]
      refine and_congr_left fun starts => ?_
      rw [get_clearActive_of_ne (itemApart starts)]
    have kept := (consistent.clearActive runId).eraseRun scanned (clearActive_not_active database runId)
    refine kept.congr fun key => ?_
    have sameActive : ((database.eraseKeys (database.keysFrom (itemPrefix runId))).erase
        (runKey runId)).get activeRunKey = database.get activeRunKey := by
      rw [get_eraseRun, if_neg]
      rintro (same | listed)
      · exact activeRunKey_ne_runKey runId same
      · exact itemApart ((KeyValue.mem_keysFrom (itemPrefix_ne_nil runId)).mp listed).2 rfl
    unfold Journal.clearActive
    rw [sameActive]
    split
    · simp only [KeyValue.get_erase, KeyValue.get_eraseKeys]
      by_cases isActive : key = activeRunKey
      · simp [isActive]
      · rw [if_neg isActive, if_neg isActive]
        by_cases isRun : key = runKey runId
        · simp [isRun]
        · simp [isRun]
    · rfl
  · exact consistent

end Steps

section Runs

/-- States that are not empty. -/
def JournalCall.Stated : JournalCall α → Prop
  | .markRunState _ _ state => state ≠ []
  | _ => True

/-- The call does not pass a state that is not allowed. -/
def JournalCall.Admits (allowed : List α → Prop) : JournalCall α → Prop
  | .markRunState _ _ state => allowed state
  | _ => True

theorem JournalCall.apply_consistent {allowed : List α → Prop} (openAllowed : allowed (text "open"))
    {database : Database α} (consistent : JournalConsistent allowed database) {call : JournalCall α}
    (stated : call.Stated) (admits : call.Admits allowed) :
    JournalConsistent allowed (call.apply database) := by
  cases call with
  | createRun clock packages flags => exact consistent.createRun openAllowed clock packages flags
  | updateItemsStatus clock runId packages status errorMessage =>
      exact consistent.updateItemsStatus clock runId packages status errorMessage
  | markRunState clock runId state => exact consistent.markRunState clock runId stated admits
  | markRunCommitted clock runId => exact consistent.markRunCommitted clock runId
  | deleteRun runId => exact consistent.deleteRun runId

theorem runJournal_consistent {allowed : List α → Prop} (openAllowed : allowed (text "open"))
    {calls : List (JournalCall α)} (stated : ∀ call ∈ calls, call.Stated)
    (admits : ∀ call ∈ calls, call.Admits allowed) : JournalConsistent allowed (runJournal calls) := by
  induction calls using List.reverseRecOn with
  | nil =>
      constructor
      · intro key payload stored
        simp [runJournal, KeyValue.empty, KeyValue.get] at stored
      · intro runId payload stored
        simp [runJournal, KeyValue.empty, KeyValue.get] at stored
      · intro runId stored
        simp [runJournal, KeyValue.empty, KeyValue.get] at stored
  | append_singleton calls call ih =>
      have before := ih (fun earlier member => stated earlier (by simp [member]))
        fun earlier member => admits earlier (by simp [member])
      rw [runJournal, List.foldl_append]
      exact JournalCall.apply_consistent openAllowed before (stated call (by simp)) (admits call (by simp))

/-- Seeing no active run and being allowed to create one are the same. -/
theorem JournalConsistent.getActiveRun_eq_none_iff {allowed : List α → Prop} {database : Database α}
    (consistent : JournalConsistent allowed database) :
    Journal.getActiveRun database = none ↔ Journal.refusesRun database = false := by
  cases found : database.get activeRunKey with
  | none => simp [Journal.getActiveRun, Journal.refusesRun, found]
  | some active =>
      obtain ⟨named, run, read, _⟩ := consistent.active active found
      simp only [readRun] at read
      simp [Journal.getActiveRun, Journal.refusesRun, found, named, read]

theorem createRun_accepted_iff (database : Database α) (clock : Int) (packages : List (StoredPackage α))
    (flags : List (List α)) :
    (Journal.createRun database clock packages flags).1 ≠ [] ↔ Journal.refusesRun database = false := by
  cases refused : Journal.refusesRun database with
  | true => simp [Journal.createRun, refused]
  | false => simpa [Journal.createRun, refused] using (newRunId_plain clock packages).1

/-- The journal is never wedged.  After any calls the active-run key names a record that
can be read, every item belongs to a stored run, and a run can be created exactly when
none is seen; unless a call sets the state itself, the active run is not committed. -/
theorem journal_invariant {calls : List (JournalCall α)} (stated : ∀ call ∈ calls, call.Stated) :
    (∀ runId, (runJournal calls).get activeRunKey = some runId →
      ∃ payload run, (runJournal calls).get (runKey runId) = some payload ∧
        deserializeRun runId payload = some run ∧
        ((∀ call ∈ calls, call.Admits (· ≠ text "committed")) → run.state ≠ text "committed")) ∧
    (∀ key payload, (runJournal calls).get key = some payload → isItemKey key = true →
      ∃ runId itemId, parseItemKey key = some (runId, itemId) ∧
        ∃ record, (runJournal calls).get (runKey runId) = some record) ∧
    ∀ clock packages flags, Journal.getActiveRun (runJournal calls) = none ↔
      (Journal.createRun (runJournal calls) clock packages flags).1 ≠ [] := by
  have consistent : JournalConsistent (fun _ => True) (runJournal calls) :=
    runJournal_consistent trivial stated fun call _ => by cases call <;> trivial
  refine ⟨fun runId isActive => ?_, fun key payload stored item => ?_, fun clock packages flags => ?_⟩
  · obtain ⟨_, run, read, _⟩ := consistent.active runId isActive
    obtain ⟨payload, stored, reads⟩ := Option.bind_eq_some_iff.mp read
    refine ⟨payload, run, stored, reads, fun admits => ?_⟩
    have strict : JournalConsistent (· ≠ text "committed") (runJournal calls) :=
      runJournal_consistent (by simp (disch := decide) [text_eq_text]) stated admits
    obtain ⟨_, found, again, fine⟩ := strict.active runId isActive
    rw [read, Option.some.injEq] at again
    exact again ▸ fine
  · obtain ⟨runId, itemId, belongs, record⟩ := consistent.items key payload stored item
    exact ⟨runId, itemId, belongs.parse, record⟩
  · rw [createRun_accepted_iff]
    exact consistent.getActiveRun_eq_none_iff

def gccInstall : StoredPackage UInt8 :=
  { action := 1, system := text "apt", name := text "gcc", version := [], sourcePath := [],
    localTarget := false }

/-- A run that fails, is taken up again and deleted; another one is still open. -/
def twoRuns : List (JournalCall UInt8) :=
  [.createRun 7 [gccInstall] [text "yes"], .updateItemsStatus 8 (newRunId 7 [gccInstall]) [gccInstall]
      (text "failed") (text "boom"),
    .markRunState 9 (newRunId 7 [gccInstall]) (text "failed"), .markRunCommitted 9 (text "other"),
    .deleteRun (newRunId 7 [gccInstall]), .createRun 9 [gccInstall] []]

theorem journal_invariant_two_runs :
    (∀ call ∈ twoRuns, call.Stated) ∧ (∀ call ∈ twoRuns, call.Admits (· ≠ text "committed")) ∧
    (runJournal twoRuns).get activeRunKey = some (newRunId 9 [gccInstall]) ∧
    ∃ payload run, (runJournal twoRuns).get (runKey (newRunId 9 [gccInstall])) = some payload ∧
      deserializeRun (newRunId 9 [gccInstall]) payload = some run ∧ run.state ≠ text "committed" := by
  have stated : ∀ call ∈ twoRuns, call.Stated := by
    simp [twoRuns, JournalCall.Stated, text]
  have admits : ∀ call ∈ twoRuns, call.Admits (· ≠ text "committed") := by
    simp (disch := decide) [twoRuns, JournalCall.Admits, text_eq_text]
  have isActive : (runJournal twoRuns).get activeRunKey = some (newRunId 9 [gccInstall]) := by decide
  obtain ⟨payload, run, stored, reads, fine⟩ := (journal_invariant stated).1 _ isActive
  exact ⟨stated, admits, isActive, payload, run, stored, reads, fine admits⟩

/-- `markRunState` stores the state it is given, and only `markRunCommitted` gives up the
active-run key. -/
theorem active_run_marked_committed :
    ∃ calls : List (JournalCall UInt8), (∀ call ∈ calls, call.Stated) ∧
      ∃ runId payload run, (runJournal calls).get activeRunKey = some runId ∧
        (runJournal calls).get (runKey runId) = some payload ∧
        deserializeRun runId payload = some run ∧ run.state = text "committed" := by
  refine ⟨[.createRun 7 [] [], .markRunState 8 (newRunId 7 []) (text "committed")],
    by simp [JournalCall.Stated, text], newRunId 7 [], ?_⟩
  have evaluated : ((readRun (runJournal [.createRun 7 [] [],
      .markRunState 8 (newRunId 7 []) (text "committed")]) (newRunId 7 ([] : List (StoredPackage UInt8)))).any
        fun run => decide (run.state = text "committed")) = true := by decide
  obtain ⟨run, read, committed⟩ := (Option.any_eq_true _ _).mp evaluated
  obtain ⟨payload, stored, reads⟩ := Option.bind_eq_some_iff.mp read
  exact ⟨payload, run, by decide, stored, reads, by simpa using committed⟩

end Runs

end ReqPack.Storage
