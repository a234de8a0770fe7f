import ReqPack.Storage.JournalRecords

/-! # The items of a run are the packages it was created with

Items are found again by scanning for the prefix of their run and put in order by
their numbers.  `HoldsItems` says which items a database holds; every item stands
under the key of its package.
-/

namespace ReqPack.Storage

open ReqPack.Data
open ReqPack.Data.Octets

variable {α : Type} [Alphabet α]

theorem parseItemKey_eq_some {key runId itemId : List α} (parsed : parseItemKey key = some (runId, itemId)) :
    key = itemPrefix runId ++ itemId := by
  unfold parseItemKey at parsed
  split at parsed
  · rename_i starts
    obtain ⟨rest, rfl⟩ := List.isPrefixOf_iff_prefix.mp starts
    have behind : (text "item:" ++ rest).drop 5 = rest := by simp [text]
    rw [behind] at parsed
    split at parsed
    · cases parsed
    · rename_i front back cut
      simp only [Option.ite_none_left_eq_some, Option.some.injEq, Prod.mk.injEq] at parsed
      obtain ⟨_, rfl, rfl⟩ := parsed
      rw [(cutAt_eq_some cut).1]
      simp [itemPrefix]
  · cases parsed

/-- An item that is read carries the ids of its key. -/
theorem deserializeItem_key {key payload : List α} {item : TransactionItemRecord α}
    (read : deserializeItem key payload = some item) : key = itemPrefix item.runId ++ item.itemId := by
  simp only [deserializeItem, Option.bind_eq_bind, Option.bind_eq_some_iff] at read
  obtain ⟨⟨runId, itemId⟩, parsed, _, _, _, _, _, _, _, _, _, _, _, _, _, _, _, _, _, _, _, _, kept⟩ := read
  simp only [Option.ite_none_left_eq_some, Option.some.injEq] at kept
  obtain ⟨_, rfl⟩ := kept
  exact parseItemKey_eq_some parsed

theorem itemKey_inj {runId : List α} {left right : StoredPackage α} :
    itemKey runId left = itemKey runId right ↔ itemIdForPackage left = itemIdForPackage right := by
  rw [itemKey, itemKey, List.append_cancel_left_eq]

theorem isItemKey_itemKey (runId : List α) (package : StoredPackage α) :
    isItemKey (itemKey runId package) = true :=
  isItemKey_of_itemPrefix (List.prefix_append _ _)

namespace Journal

/-- An entry under the prefix of the run that can be read as an item. -/
def Found (database : Database α) (runId key : List α) (item : TransactionItemRecord α) : Prop :=
  ∃ payload, database.get key = some payload ∧ itemPrefix runId <+: key ∧
    deserializeItem key payload = some item

theorem mem_getRunItems {database : Database α} {runId : List α} {item : TransactionItemRecord α} :
    item ∈ getRunItems database runId ↔ ∃ key, Found database runId key item := by
  simp only [getRunItems, List.mem_insertionSort, List.mem_filterMap]
  constructor
  · intro found
    obtain ⟨entry, scanned, read⟩ := found
    obtain ⟨stored, starts⟩ := (KeyValue.mem_scan (itemPrefix_ne_nil runId)).mp scanned
    exact ⟨entry.1, entry.2, stored, starts, read⟩
  · intro found
    obtain ⟨key, payload, stored, starts, read⟩ := found
    exact ⟨(key, payload), (KeyValue.mem_scan (itemPrefix_ne_nil runId)).mpr ⟨stored, starts⟩, read⟩

theorem getRunItems_nodup (database : Database α) (runId : List α) : (getRunItems database runId).Nodup := by
  have sorted : (database.scan (itemPrefix runId)).Pairwise fun left right => left.1 < right.1 := by
    rw [KeyValue.scan_eq_filter database (itemPrefix_ne_nil runId)]
    exact database.sorted.filter _
  have apart : ((database.scan (itemPrefix runId)).filterMap
      fun entry => deserializeItem entry.1 entry.2).Nodup := by
    rw [List.Nodup, List.pairwise_filterMap]
    refine sorted.imp fun {left right} below first firstRead second secondRead same => ?_
    -- an item names its key, so two keys give two items
    have keys : left.1 = right.1 := by
      rw [deserializeItem_key firstRead, deserializeItem_key secondRead, same]
    exact below.ne keys
  exact (List.perm_insertionSort _ _).nodup_iff.mpr apart

theorem getRunItems_ordered (database : Database α) (runId : List α) :
    (getRunItems database runId).Pairwise fun left right => left.sequence ≤ right.sequence := by
  have total : Std.Total fun left right : TransactionItemRecord α => left.sequence ≤ right.sequence :=
    ⟨fun left right => Nat.le_total _ _⟩
  have transitive : IsTrans (TransactionItemRecord α) fun left right => left.sequence ≤ right.sequence :=
    ⟨fun _ _ _ => Nat.le_trans⟩
  exact List.pairwise_insertionSort _ _

end Journal

/-- The items a database holds of a run, in the order of their numbers. -/
structure HoldsItems (database : Database α) (runId : List α) (items : List (TransactionItemRecord α)) :
    Prop where
  stored : ∀ item ∈ items, database.get (itemKey runId item.package) = some (serializeItem item)
  owned : ∀ item ∈ items, item.runId = runId ∧ item.itemId = itemIdForPackage item.package
  typed : ∀ item ∈ items, item.sequence < 2 ^ 64 ∧ item.package.Typed
  complete : ∀ key item, Journal.Found database runId key item →
    ∃ listed ∈ items, key = itemKey runId listed.package
  ordered : items.Pairwise fun left right => left.sequence < right.sequence
  apart : items.Pairwise fun left right => itemIdForPackage left.package ≠ itemIdForPackage right.package

section Reading

variable {database : Database α} {runId : List α} {items : List (TransactionItemRecord α)}

/-- An item that is held is read as it is, unless it has no status. -/
theorem HoldsItems.read (holds : HoldsItems database runId items) (named : runId ≠ []) (plain : colon ∉ runId)
    {item : TransactionItemRecord α} (member : item ∈ items) :
    deserializeItem (itemKey runId item.package) (serializeItem item) =
      if item.status.isEmpty then none else some item := by
  obtain ⟨sequence, typed⟩ := holds.typed item member
  obtain ⟨run, itemId⟩ := holds.owned item member
  rw [deserialize_serializeItem sequence typed (itemOf_itemKey named plain item.package).parse]
  obtain ⟨_, _, _, _, _, _⟩ := item
  simp only at run itemId
  rw [run, itemId]

theorem HoldsItems.getRunItems (holds : HoldsItems database runId items) (named : runId ≠ [])
    (plain : colon ∉ runId) :
    Journal.getRunItems database runId = items.filter fun item => !item.status.isEmpty := by
  have members : ∀ item, item ∈ Journal.getRunItems database runId ↔
      item ∈ items.filter fun item => !item.status.isEmpty := by
    intro item
    rw [Journal.mem_getRunItems, List.mem_filter]
    constructor
    · intro found
      obtain ⟨key, located⟩ := found
      obtain ⟨listed, member, rfl⟩ := holds.complete key item located
      obtain ⟨payload, stored, _, read⟩ := located
      rw [holds.stored listed member, Option.some.injEq] at stored
      subst stored
      rw [holds.read named plain member, Option.ite_none_left_eq_some, Option.some.injEq] at read
      obtain ⟨stated, rfl⟩ := read
      exact ⟨member, by simpa using stated⟩
    · intro listed
      obtain ⟨member, stated⟩ := listed
      refine ⟨itemKey runId item.package, _, holds.stored item member, List.prefix_append _ _, ?_⟩
      rw [holds.read named plain member, if_neg (by simpa using stated)]
  have strict : (items.filter fun item => !item.status.isEmpty).Pairwise
      fun left right => left.sequence < right.sequence := holds.ordered.filter _
  have numbers : ((items.filter fun item => !item.status.isEmpty).map (·.sequence)).Nodup :=
    List.pairwise_map.mpr (strict.imp Nat.ne_of_lt)
  have permuted := (List.perm_ext_iff_of_nodup (Journal.getRunItems_nodup database runId)
    (List.Nodup.of_map _ numbers)).mpr members
  refine permuted.eq_of_pairwise ?_ (Journal.getRunItems_ordered database runId) (strict.imp Nat.le_of_lt)
  intro left right listed member below above
  exact List.inj_on_of_nodup_map numbers ((members left).mp listed) member (Nat.le_antisymm below above)

end Reading

section Creating

variable {database : Database α} {runId : List α}

/-- Writing items changes no key but theirs. -/
theorem get_foldl_putItem_other (items : List (TransactionItemRecord α)) {key : List α}
    (other : ∀ item ∈ items, key ≠ itemKey runId item.package) :
    (items.foldl (Journal.putItem runId) database).get key = database.get key := by
  induction items generalizing database with
  | nil => rfl
  | cons item items ih =>
      rw [List.foldl_cons, ih fun later member => other later (List.mem_cons_of_mem _ member),
        Journal.putItem, KeyValue.get_put, if_neg (other item List.mem_cons_self)]

theorem get_foldl_putItem_self {items : List (TransactionItemRecord α)}
    (apart : items.Pairwise fun left right => itemIdForPackage left.package ≠ itemIdForPackage right.package)
    {item : TransactionItemRecord α} (member : item ∈ items) :
    (items.foldl (Journal.putItem runId) database).get (itemKey runId item.package) =
      some (serializeItem item) := by
  induction items generalizing database with
  | nil => cases member
  | cons first items ih =>
      obtain ⟨differs, rest⟩ := List.pairwise_cons.mp apart
      rw [List.foldl_cons]
      rcases List.mem_cons.mp member with rfl | later
      · rw [get_foldl_putItem_other items fun other listed same => differs other listed (itemKey_inj.1 same),
          Journal.putItem, KeyValue.get_put, if_pos rfl]
      · exact ih rest later

/-- The first two writes of `createRun` touch no item. -/
theorem get_openRun {key : List α} (item : isItemKey key = true) (payload : List α) :
    ((database.put activeRunKey runId).put (runKey runId) payload).get key = database.get key := by
  have notRun : key ≠ runKey runId := by
    rintro rfl
    rw [not_isItemKey_runKey] at item
    cases item
  have notActive : key ≠ activeRunKey := by
    rintro rfl
    rw [not_isItemKey_activeRunKey] at item
    cases item
  rw [KeyValue.get_put, if_neg notRun, KeyValue.get_put, if_neg notActive]

/-- The packages get keys of their own, and nothing that can be read is left under the
prefix of the run. -/
structure Separate (database : Database α) (runId : List α) (packages : List (StoredPackage α)) : Prop where
  keys : packages.Pairwise fun left right => itemIdForPackage left ≠ itemIdForPackage right
  fresh : ∀ key item, Journal.Found database runId key item →
    ∃ package ∈ packages, key = itemKey runId package

def plannedItems (runId : List α) (packages : List (StoredPackage α)) : List (TransactionItemRecord α) :=
  packages.zipIdx.map (Journal.plannedItem runId)

theorem map_package_plannedItems (runId : List α) (packages : List (StoredPackage α)) :
    (plannedItems runId packages).map (·.package) = packages := by
  simp [plannedItems, Journal.plannedItem, Function.comp_def, List.zipIdx_map_fst]

theorem mem_plannedItems {packages : List (StoredPackage α)} {item : TransactionItemRecord α}
    (member : item ∈ plannedItems runId packages) :
    item = Journal.plannedItem runId (item.package, item.sequence) ∧ item.package ∈ packages ∧
      item.sequence < packages.length := by
  obtain ⟨entry, listed, rfl⟩ := List.mem_map.mp member
  obtain ⟨bound, same⟩ := List.mem_zipIdx' listed
  have present : entry.1 ∈ packages := by
    rw [same]
    exact List.getElem_mem bound
  exact ⟨rfl, present, bound⟩

theorem exists_plannedItem (runId : List α) {packages : List (StoredPackage α)} {package : StoredPackage α}
    (member : package ∈ packages) : ∃ item ∈ plannedItems runId packages, item.package = package := by
  rw [← map_package_plannedItems runId packages] at member
  exact List.mem_map.mp member

theorem plannedItems_ordered (runId : List α) (packages : List (StoredPackage α)) :
    (plannedItems runId packages).Pairwise fun left right => left.sequence < right.sequence := by
  rw [plannedItems, List.pairwise_map]
  have numbers : (packages.zipIdx.map Prod.snd).Pairwise (· < ·) := by
    rw [List.zipIdx_map_snd]
    exact List.pairwise_lt_range'
  exact List.pairwise_map.mp numbers

theorem plannedItems_apart {packages : List (StoredPackage α)}
    (keys : packages.Pairwise fun left right => itemIdForPackage left ≠ itemIdForPackage right) :
    (plannedItems runId packages).Pairwise
      fun left right => itemIdForPackage left.package ≠ itemIdForPackage right.package := by
  rw [← map_package_plannedItems runId packages, List.pairwise_map] at keys
  exact keys

theorem get_writeRun_other {clock : Int} {packages : List (StoredPackage α)} {flags : List (List α)}
    {key : List α} (isItem : isItemKey key = true)
    (other : ∀ package ∈ packages, key ≠ itemKey (newRunId clock packages) package) :
    (Journal.writeRun database clock packages flags).get key = database.get key := by
  have apart : ∀ item ∈ plannedItems (newRunId clock packages) packages,
      key ≠ itemKey (newRunId clock packages) item.package :=
    fun item member => other item.package (mem_plannedItems member).2.1
  exact (get_foldl_putItem_other _ apart).trans (get_openRun isItem _)

theorem HoldsItems.writeRun {packages : List (StoredPackage α)} (bound : packages.length ≤ 2 ^ 64)
    (typed : ∀ package ∈ packages, package.Typed) {clock : Int}
    (separate : Separate database (newRunId clock packages) packages) (flags : List (List α)) :
    HoldsItems (Journal.writeRun database clock packages flags) (newRunId clock packages)
      (plannedItems (newRunId clock packages) packages) where
  stored _ member := get_foldl_putItem_self (plannedItems_apart separate.keys) member
  owned item member := by
    rw [(mem_plannedItems member).1]
    exact ⟨rfl, rfl⟩
  typed item member := by
    obtain ⟨_, listed, index⟩ := mem_plannedItems member
    exact ⟨by omega, typed item.package listed⟩
  complete key item found := by
    have written : ∃ package ∈ packages, key = itemKey (newRunId clock packages) package := by
      by_contra! other
      -- an entry that was not written now was there before
      obtain ⟨payload, stored, starts, read⟩ := found
      rw [get_writeRun_other (isItemKey_of_itemPrefix starts) other] at stored
      obtain ⟨package, member, same⟩ := separate.fresh key item ⟨payload, stored, starts, read⟩
      exact other package member same
    obtain ⟨package, member, same⟩ := written
    obtain ⟨planned, listed, rfl⟩ := exists_plannedItem (newRunId clock packages) member
    exact ⟨planned, listed, same⟩
  ordered := plannedItems_ordered _ packages
  apart := plannedItems_apart separate.keys

/-- Were the items of the new run read as planned, no two of them could share a key and
nothing else could be found. -/
theorem separate_of_read {packages : List (StoredPackage α)} {clock : Int} {flags : List (List α)}
    (read : Journal.getRunItems (Journal.writeRun database clock packages flags) (newRunId clock packages) =
      plannedItems (newRunId clock packages) packages) :
    Separate database (newRunId clock packages) packages := by
  have located : ∀ key item, Journal.Found (Journal.writeRun database clock packages flags)
      (newRunId clock packages) key item →
        item ∈ plannedItems (newRunId clock packages) packages ∧
          key = itemKey (newRunId clock packages) item.package := by
    intro key item found
    have listed : item ∈ plannedItems (newRunId clock packages) packages := by
      rw [← read, Journal.mem_getRunItems]
      exact ⟨key, found⟩
    obtain ⟨payload, _, _, reads⟩ := found
    have ids := deserializeItem_key reads
    rw [(mem_plannedItems listed).1] at ids
    exact ⟨listed, ids⟩
  constructor
  · rw [← map_package_plannedItems (newRunId clock packages) packages, List.pairwise_map]
    refine (plannedItems_ordered _ packages).imp_of_mem fun {left right} leftListed rightListed below same => ?_
    rw [← read, Journal.mem_getRunItems] at leftListed rightListed
    obtain ⟨leftKey, leftFound⟩ := leftListed
    obtain ⟨rightKey, rightFound⟩ := rightListed
    have keys : leftKey = rightKey := by
      rw [(located leftKey left leftFound).2, (located rightKey right rightFound).2, itemKey_inj]
      exact same
    obtain ⟨leftPayload, leftStored, _, leftRead⟩ := leftFound
    obtain ⟨rightPayload, rightStored, _, rightRead⟩ := rightFound
    rw [keys, rightStored, Option.some.injEq] at leftStored
    rw [keys, ← leftStored, rightRead, Option.some.injEq] at leftRead
    rw [leftRead] at below
    exact Nat.lt_irrefl _ below
  · intro key item found
    by_contra! other
    obtain ⟨payload, stored, starts, reads⟩ := found
    have unchanged : (Journal.writeRun database clock packages flags).get key = database.get key :=
      get_writeRun_other (isItemKey_of_itemPrefix starts) other
    rw [← unchanged] at stored
    obtain ⟨listed, same⟩ := located key item ⟨payload, stored, starts, reads⟩
    exact other item.package (mem_plannedItems listed).2.1 same

end Creating

section Updating

variable {database : Database α} {runId : List α} {items : List (TransactionItemRecord α)}

/-- A new status for the item of one package. -/
def withStatus (package : StoredPackage α) (status errorMessage : List α) (item : TransactionItemRecord α) :
    TransactionItemRecord α :=
  if item.package = package then { item with status := status, errorMessage := errorMessage } else item

@[simp] theorem withStatus_package (package : StoredPackage α) (status errorMessage : List α)
    (item : TransactionItemRecord α) : (withStatus package status errorMessage item).package = item.package := by
  unfold withStatus
  split <;> rfl

@[simp] theorem withStatus_sequence (package : StoredPackage α) (status errorMessage : List α)
    (item : TransactionItemRecord α) : (withStatus package status errorMessage item).sequence = item.sequence := by
  unfold withStatus
  split <;> rfl

theorem withStatus_ids (package : StoredPackage α) (status errorMessage : List α) (item : TransactionItemRecord α) :
    (withStatus package status errorMessage item).runId = item.runId ∧
      (withStatus package status errorMessage item).itemId = item.itemId := by
  unfold withStatus
  split
  · exact ⟨rfl, rfl⟩
  · exact ⟨rfl, rfl⟩

theorem get_touchRun_item (clock : Int) {key : List α} (isItem : isItemKey key = true) :
    (Journal.touchRun database runId clock).get key = database.get key := by
  have notRun : key ≠ runKey runId := by
    rintro rfl
    rw [not_isItemKey_runKey] at isItem
    cases isItem
  unfold Journal.touchRun
  split
  · rfl
  · split
    · rfl
    · rw [KeyValue.get_put, if_neg notRun]

theorem HoldsItems.unique (holds : HoldsItems database runId items) {left right : TransactionItemRecord α}
    (leftListed : left ∈ items) (rightListed : right ∈ items)
    (same : itemIdForPackage left.package = itemIdForPackage right.package) : left = right :=
  List.inj_on_of_nodup_map (List.pairwise_map.mpr holds.apart) leftListed rightListed same

/-- What an update of one item leaves under the keys of items. -/
theorem HoldsItems.get_update (holds : HoldsItems database runId items) (named : runId ≠ [])
    (plain : colon ∉ runId) {item : TransactionItemRecord α} (member : item ∈ items) (stated : item.status ≠ [])
    (clock : Int) (status errorMessage : List α) {key : List α} (isItem : isItemKey key = true) :
    (Journal.updateItemsStatus database clock runId [item.package] status errorMessage).get key =
      if key = itemKey runId item.package then
        some (serializeItem { item with status := status, errorMessage := errorMessage })
      else database.get key := by
  have reads : deserializeItem (itemKey runId item.package) (serializeItem item) = some item := by
    rw [holds.read named plain member, if_neg (by simpa using stated)]
  have updated : Journal.updateItemStatus runId status errorMessage database item.package =
      some (database.put (itemKey runId item.package)
        (serializeItem { item with status := status, errorMessage := errorMessage })) := by
    simp only [Journal.updateItemStatus, holds.stored item member, reads, Option.bind_eq_bind, Option.bind_some]
  simp only [Journal.updateItemsStatus, List.foldlM_cons, List.foldlM_nil, updated, Option.bind_eq_bind,
    Option.bind_some, Option.pure_def]
  rw [get_touchRun_item clock isItem, KeyValue.get_put]
  by_cases same : key = itemKey runId item.package
  · rw [if_pos same, if_pos same]
  · rw [if_neg same, if_neg same]

/-- An update of one package changes its item and no other. -/
theorem HoldsItems.updateItemsStatus (holds : HoldsItems database runId items) (named : runId ≠ [])
    (plain : colon ∉ runId) {item : TransactionItemRecord α} (member : item ∈ items) (stated : item.status ≠ [])
    (clock : Int) (status errorMessage : List α) :
    HoldsItems (Journal.updateItemsStatus database clock runId [item.package] status errorMessage) runId
      (items.map (withStatus item.package status errorMessage)) where
  stored changed listed := by
    obtain ⟨other, otherListed, rfl⟩ := List.mem_map.mp listed
    rw [withStatus_package, holds.get_update named plain member stated clock status errorMessage
      (isItemKey_itemKey runId other.package)]
    by_cases same : itemIdForPackage other.package = itemIdForPackage item.package
    · obtain rfl := holds.unique otherListed member same
      rw [if_pos rfl, withStatus, if_pos rfl]
    · have differs : other.package ≠ item.package := fun equal => same (congrArg itemIdForPackage equal)
      rw [if_neg fun keys => same (itemKey_inj.1 keys), withStatus, if_neg differs]
      exact holds.stored other otherListed
  owned changed listed := by
    obtain ⟨other, otherListed, rfl⟩ := List.mem_map.mp listed
    rw [withStatus_package, (withStatus_ids _ _ _ other).1, (withStatus_ids _ _ _ other).2]
    exact holds.owned other otherListed
  typed changed listed := by
    obtain ⟨other, otherListed, rfl⟩ := List.mem_map.mp listed
    rw [withStatus_package, withStatus_sequence]
    exact holds.typed other otherListed
  complete key found located := by
    obtain ⟨payload, stored, starts, read⟩ := located
    by_cases same : key = itemKey runId item.package
    · exact ⟨_, List.mem_map_of_mem member, by rw [withStatus_package]; exact same⟩
    · rw [holds.get_update named plain member stated clock status errorMessage
        (isItemKey_of_itemPrefix starts), if_neg same] at stored
      obtain ⟨listed, present, equal⟩ := holds.complete key found ⟨payload, stored, starts, read⟩
      exact ⟨_, List.mem_map_of_mem present, by rw [withStatus_package]; exact equal⟩
  ordered := by
    rw [List.pairwise_map]
    simpa only [withStatus_sequence] using holds.ordered
  apart := by
    rw [List.pairwise_map]
    simpa only [withStatus_package] using holds.apart

end Updating

section Requests

/-- The items of the new run are its packages in order and planned, and an update of one
of the packages changes its item only; an item that lost its status is not read. -/
def ItemsAsRequested (database : Database α) (clock : Int) (packages : List (StoredPackage α))
    (flags : List (List α)) : Prop :=
  let created := Journal.createRun database clock packages flags
  Journal.getRunItems created.2 created.1 = plannedItems created.1 packages ∧
  ∀ package ∈ packages, ∀ later status errorMessage,
    Journal.getRunItems (Journal.updateItemsStatus created.2 later created.1 [package] status errorMessage)
        created.1 =
      ((plannedItems created.1 packages).map (withStatus package status errorMessage)).filter
        fun item => !item.status.isEmpty

theorem planned_stated {runId : List α} {packages : List (StoredPackage α)} {item : TransactionItemRecord α}
    (member : item ∈ plannedItems runId packages) : item.status ≠ [] := by
  rw [(mem_plannedItems member).1]
  simp [Journal.plannedItem, text]

/-- A run that was created has the requested packages as its items exactly when the
packages have keys of their own and no readable item was left under the prefix of the run. -/
theorem items_as_requested_iff {database : Database α} {clock : Int} {packages : List (StoredPackage α)}
    {flags : List (List α)} (accepted : (Journal.createRun database clock packages flags).1 ≠ [])
    (bound : packages.length ≤ 2 ^ 64) (typed : ∀ package ∈ packages, package.Typed) :
    ItemsAsRequested database clock packages flags ↔
      (packages.Pairwise fun left right => itemIdForPackage left ≠ itemIdForPackage right) ∧
      ∀ key payload item, database.get key = some payload →
        itemPrefix (newRunId clock packages) <+: key → deserializeItem key payload = some item →
          ∃ package ∈ packages, key = itemKey (newRunId clock packages) package := by
  obtain ⟨named, plain⟩ := newRunId_plain clock packages
  have created : Journal.createRun database clock packages flags =
      (newRunId clock packages, Journal.writeRun database clock packages flags) := by
    rw [Journal.createRun, (createRun_accepted_iff database clock packages flags).mp accepted]
    rfl
  rw [ItemsAsRequested, created]
  constructor
  · intro requested
    have separate := separate_of_read requested.1
    exact ⟨separate.keys, fun key payload item stored starts read =>
      separate.fresh key item ⟨payload, stored, starts, read⟩⟩
  · intro separate
    have holds := HoldsItems.writeRun bound typed ⟨separate.1, fun key item found => by
      obtain ⟨payload, stored, starts, read⟩ := found
      exact separate.2 key payload item stored starts read⟩ flags
    constructor
    · rw [holds.getRunItems named plain, List.filter_eq_self]
      intro item member
      simpa using planned_stated member
    · intro package member later status errorMessage
      obtain ⟨item, listed, rfl⟩ := exists_plannedItem (newRunId clock packages) member
      exact (holds.updateItemsStatus named plain listed (planned_stated listed) later status
        errorMessage).getRunItems named plain

def vimInstall : StoredPackage UInt8 := { gccInstall with name := text "vim" }

theorem items_as_requested_two : ItemsAsRequested (KeyValue.empty : Database UInt8) 7 [gccInstall, vimInstall] [] := by
  refine (items_as_requested_iff (by decide) (by decide) ?_).mpr ⟨?_, ?_⟩
  · simp only [List.mem_cons, List.not_mem_nil, or_false, forall_eq_or_imp, forall_eq]
    exact ⟨⟨by decide, by decide⟩, ⟨by decide, by decide⟩⟩
  · simp only [List.pairwise_cons, List.mem_singleton, forall_eq, List.not_mem_nil, false_implies, implies_true,
      List.Pairwise.nil, and_true]
    decide
  · intro key payload item stored
    simp [KeyValue.empty, KeyValue.get] at stored

/-- Fields are joined by bars that are not escaped. -/
def barredInstalls : List (StoredPackage UInt8) :=
  [{ gccInstall with name := text "gcc|13", version := text "2" },
    { gccInstall with name := text "gcc", version := text "13|2" }]

/-- Two packages under one key: the second takes the place of the first. -/
theorem barred_installs_share_item :
    barredInstalls.Nodup ∧
    (Journal.createRun (KeyValue.empty : Database UInt8) 7 barredInstalls []).1 ≠ [] ∧
    (Journal.getRunItems (Journal.createRun (KeyValue.empty : Database UInt8) 7 barredInstalls []).2
      (newRunId 7 barredInstalls)).map (·.package) =
        [{ gccInstall with name := text "gcc", version := text "13|2" }] ∧
    ¬ ItemsAsRequested (KeyValue.empty : Database UInt8) 7 barredInstalls [] := by
  have read : (Journal.getRunItems (Journal.createRun (KeyValue.empty : Database UInt8) 7 barredInstalls []).2
      (newRunId 7 barredInstalls)).map (·.package) =
        [{ gccInstall with name := text "gcc", version := text "13|2" }] := by decide
  refine ⟨by decide, by decide, read, fun requested => ?_⟩
  have items := congrArg (List.map (·.package)) requested.1
  rw [map_package_plannedItems, show (Journal.createRun (KeyValue.empty : Database UInt8) 7 barredInstalls []).1 =
    newRunId 7 barredInstalls by decide, read] at items
  revert items
  decide

end Requests

end ReqPack.Storage
