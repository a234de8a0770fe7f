import ReqPack.Executor.RecoveryPass
import ReqPack.Executor.Execute

/-! # Recovery makes progress

A record names its package by action, system, name and version, and the journal
files it under all six fields.  As long as no two items of a run agree in those
four, every record reaches the item it was made for, so each pass deals with at
least one item or ends the run.
-/

namespace ReqPack.Executor

open ReqPack.Data ReqPack.Core ReqPack.Scheduler

section Lookup

variable {actionCode : ActionType → Nat} {runItems : List JournalItem} {record : TransactionRecord}

theorem matchesRecord_iff {package : Package} :
    matchesRecord record package = true ↔
      recordKey package = (record.action, record.system, record.packageName, record.packageVersion) := by
  simp [matchesRecord, recordKey, and_assoc]

/-- The package rebuilt from a record has the key of the item that agrees with it. -/
theorem itemId_packageForRecord (distinct : DistinctRecordKeys runItems) {item : JournalItem}
    (member : item ∈ runItems) (agrees : matchesRecord record item.package = true) :
    itemId actionCode item.package = itemId actionCode (packageForRecord runItems record) := by
  have found : runItems.find? (fun item => matchesRecord record item.package) = some item := by
    cases search : runItems.find? fun item => matchesRecord record item.package with
    | none =>
        rw [List.find?_eq_none] at search
        exact absurd agrees (search item member)
    | some other =>
        have otherAgrees := List.find?_some search
        have same := (matchesRecord_iff.1 otherAgrees).trans (matchesRecord_iff.1 agrees).symm
        rw [List.inj_on_of_nodup_map distinct (List.mem_of_find?_eq_some search) member same]
  obtain ⟨action, system, name, version⟩ : item.package.action = record.action ∧
      item.package.system = record.system ∧ item.package.name = record.packageName ∧
      item.package.version = record.packageVersion := by
    simpa [matchesRecord, and_assoc] using agrees
  apply itemId_congr
  simp [packageForRecord, found, samePackage, action, system, name, version]

end Lookup

section Step

variable {σ : Type} {host : Host σ} {config : ExecutionConfig} {runId : String} {world : World σ}

/-- The item that was kept at the front is dealt with once the records are written. -/
theorem resumedRun_settles_first {flags : List String} {first : JournalItem} {rest done : List JournalItem}
    {plugins : σ} (posix : config.platform = .posix) {items : List JournalItem} (distinct : DistinctRecordKeys items)
    {item : JournalItem} (member : item ∈ items) (same : item.package = first.package) :
    (recordChange host.actionCode items
      (resumedRun host config runId flags (first :: rest) done plugins world).1 item).status.settled =
        true := by
  obtain ⟨group, groups, grouped, held⟩ := recoveredGroups_cons flags first rest
  have coherent : group.Coherent := recoveredGroups_coherent (grouped ▸ List.mem_cons_self)
  obtain ⟨status, message, listed⟩ : ∃ status message, makeRecord group runId status message first.package ∈
      (resumedRun host config runId flags (first :: rest) done plugins world).1 := by
    rw [resumedRun, grouped]
    exact runInOrder_covers_first posix groups _ held
  refine recordChange_settled resumedRun_final items listed ?_
  refine itemId_packageForRecord distinct member (matchesRecord_iff.2 ?_)
  simp [recordKey, makeRecord, same, coherent.action _ held, coherent.system _ held]

/-- A pass that does not end the run leaves it with fewer items to deal with. -/
theorem recoverInterruptedRun_progress (posix : config.platform = .posix)
    (run : InterruptedRun host.actionCode world.journal runId)
    (resolved : ResolvedSystems host (world.journal.items runId))
    (distinct : DistinctRecordKeys (world.journal.items runId))
    (active : (recoverInterruptedRun host config world).journal.activeRun ≠ none) :
    pendingCount ((recoverInterruptedRun host config world).journal.items runId) <
      pendingCount (world.journal.items runId) := by
  obtain ⟨flags, kept, done, plugins, pass, change, runItems, reached⟩ :=
    recoverInterruptedRun_outcome run resolved active
  obtain ⟨first, rest, rfl⟩ := List.exists_cons_of_ne_nil pass.nonempty
  have pending := mem_pendingItems.1 (pass.perm.subset (List.mem_append_left done List.mem_cons_self))
  have settled : (recordChange host.actionCode runItems
      (resumedRun host config runId flags (first :: rest) done plugins world).1
      (change first)).status.settled = true :=
    resumedRun_settles_first posix (reached.distinctRecordKeys distinct)
      (reached.perm.mem_iff.2 (List.mem_map_of_mem pending.1)) (reached.advances.package first)
  have whole := reached.advances.comp (recordChange_advances host.actionCode reached.final runItems _)
  rw [reached.items]
  exact pendingCount_map_lt whole pending.1 pending.2 settled

end Step

section Created

variable {actionCode : ActionType → Nat}

theorem putItem_ids {items : List JournalItem} (item : JournalItem)
    (distinct : (items.map fun item => itemId actionCode item.package).Nodup) :
    ((Journal.putItem actionCode items item).map fun item => itemId actionCode item.package).Nodup := by
  rw [Journal.putItem, List.map_append]
  refine List.nodup_append.mpr ⟨distinct.sublist (List.filter_sublist.map _), List.pairwise_singleton _ _,
    fun first member second listed => ?_⟩
  obtain ⟨other, kept, rfl⟩ := List.mem_map.mp member
  rw [List.map_singleton, List.mem_singleton] at listed
  rw [listed]
  simpa using (List.mem_filter.mp kept).2

/-- The items a run starts with have different keys and the packages of the list. -/
theorem plannedItems_spec (actionCode : ActionType → Nat) (entries : List (Package × Nat)) :
    let items := (entries.map Journal.plannedItem).foldl (Journal.putItem actionCode) []
    (items.map fun item => itemId actionCode item.package).Nodup ∧
      (∀ item ∈ items, ∃ entry ∈ entries, item = Journal.plannedItem entry) ∧
      ((entries.map fun entry => recordKey entry.1).Nodup → DistinctRecordKeys items) := by
  induction entries using List.reverseRecOn with
  | nil => simp [DistinctRecordKeys]
  | append_singleton entries entry ih =>
      obtain ⟨ids, origin, keys⟩ := ih
      simp only [List.map_append, List.map_singleton, List.foldl_append, List.foldl_cons,
        List.foldl_nil]
      refine ⟨putItem_ids _ ids, fun item member => ?_, fun distinct => ?_⟩
      · rw [Journal.putItem] at member
        rcases List.mem_append.mp member with old | new
        · obtain ⟨known, listed, same⟩ := origin item (List.mem_of_mem_filter old)
          exact ⟨known, List.mem_append_left _ listed, same⟩
        · exact ⟨entry, by simp, List.mem_singleton.mp new⟩
      · rw [List.nodup_append] at distinct
        rw [DistinctRecordKeys, Journal.putItem, List.map_append]
        refine List.nodup_append.mpr ⟨(keys distinct.1).sublist (List.filter_sublist.map _),
          List.pairwise_singleton _ _, fun first member second listed => ?_⟩
        obtain ⟨other, kept, rfl⟩ := List.mem_map.mp member
        obtain ⟨known, present, rfl⟩ := origin other (List.mem_of_mem_filter kept)
        rw [List.map_singleton, List.mem_singleton] at listed
        rw [listed]
        exact distinct.2.2 (recordKey known.1) (List.mem_map.mpr ⟨known, present, rfl⟩)
          (recordKey entry.1) (by simp)

/-- The journal holds an active run that `createRun` made for the packages; what
became of its items since is left open. -/
structure CreatedRun (actionCode : ActionType → Nat) (packages : List Package) (journal : Journal)
    (runId : String) : Prop where
  active : journal.activeRun = some runId
  stored : ∃ run, journal.runs runId = some run ∧ run.state ≠ .committed
  created : ∃ (earlier : Journal) (timestamp : String) (flags : List String) (started : Journal),
    earlier.items runId = [] ∧
    earlier.createRun actionCode timestamp packages flags = some (runId, started) ∧
    (journal.items runId).map (·.package) = (started.items runId).map (·.package)

theorem CreatedRun.interruptedRun {packages : List Package} {journal : Journal} {runId : String}
    (created : CreatedRun actionCode packages journal runId) :
    InterruptedRun actionCode journal runId ∧
      (∀ item ∈ journal.items runId, item.package.system ∈ packages.map (·.system)) ∧
      ((packages.map recordKey).Nodup → DistinctRecordKeys (journal.items runId)) := by
  obtain ⟨earlier, timestamp, flags, started, fresh, made, same⟩ := created.created
  simp only [Journal.createRun, Option.ite_none_right_eq_some, Option.some.injEq, Prod.mk.injEq] at made
  obtain ⟨_, rfl, rfl⟩ := made
  simp only [Function.update_self, fresh] at same
  obtain ⟨ids, origin, keys⟩ := plannedItems_spec actionCode packages.zipIdx
  refine ⟨⟨created.active, ?_, created.stored, ?_⟩, fun item member => ?_, fun distinct => ?_⟩
  · intro empty
    have length := congrArg String.length empty
    simp [String.length_append] at length
  · have sameIds := congrArg (List.map (itemId actionCode)) same
    simp only [List.map_map, Function.comp_def] at sameIds ids
    rw [sameIds]
    exact ids
  · have listed := List.mem_map_of_mem (f := JournalItem.package) member
    rw [same] at listed
    obtain ⟨planned, present, equal⟩ := List.mem_map.mp listed
    obtain ⟨entry, known, rfl⟩ := origin planned present
    rw [← equal]
    exact List.mem_map.mpr ⟨entry.1, (List.zipIdx_map_fst 0 packages) ▸ List.mem_map_of_mem known, rfl⟩
  · have sameKeys := congrArg (List.map recordKey) same
    simp only [List.map_map, Function.comp_def] at sameKeys
    rw [DistinctRecordKeys, sameKeys]
    refine keys ?_
    have entries : (packages.zipIdx.map Prod.fst).map recordKey = packages.map recordKey := by
      rw [List.zipIdx_map_fst]
    rw [List.map_map] at entries
    exact entries ▸ distinct

end Created

/-- A later call of the executor, with the plugins as it finds them. -/
structure ExecuteCall (σ : Type) where
  host : Host σ
  config : ExecutionConfig := {}
  inputAlreadyFiltered : Bool := false
  graph : Graph := Graph.empty
  script : ExecuteScript := { sorted := [], orphanRounds := 1 }
  plugins : σ

namespace ExecuteCall

variable {σ : Type}

/-- The world as the call finds it. -/
def entered (call : ExecuteCall σ) (world : World σ) : World σ := { world with plugins := call.plugins }

def run (call : ExecuteCall σ) (world : World σ) : Option (ExecuteResult σ) :=
  execute call.host call.config call.inputAlreadyFiltered call.graph call.script (call.entered world)

/-- The world behind the recovery of the call. -/
def recovered (call : ExecuteCall σ) (world : World σ) : World σ :=
  recoverInterruptedRun call.host call.config (call.entered world)

/-- A call that uses the journal and knows the systems of the packages by their names. -/
structure Usable (actionCode : ActionType → Nat) (packages : List Package) (call : ExecuteCall σ) :
    Prop where
  journaled : call.config.useTransactionDb = true
  actionCode : call.host.actionCode = actionCode
  resolved : ∀ package ∈ packages, call.host.resolvePluginName package.system = package.system

end ExecuteCall

/-- The worlds behind the recoveries of calls made one after the other. -/
def recoveredAfter {σ : Type} (calls : List (ExecuteCall σ)) (world : World σ) : World σ :=
  calls.foldl (fun world call => call.recovered world) world

section Runs

variable {σ : Type} {actionCode : ActionType → Nat} {packages : List Package} {runId : String}
  {world : World σ}

/-- A run that is still there after some passes, with what is left of it. -/
structure StillInterrupted (actionCode : ActionType → Nat) (packages : List Package) (runId : String)
    (world : World σ) : Prop where
  run : InterruptedRun actionCode world.journal runId
  distinct : DistinctRecordKeys (world.journal.items runId)
  systems : ∀ item ∈ world.journal.items runId, item.package.system ∈ packages.map (·.system)

theorem StillInterrupted.entered (still : StillInterrupted actionCode packages runId world)
    {call : ExecuteCall σ} (usable : call.Usable actionCode packages) :
    InterruptedRun call.host.actionCode (call.entered world).journal runId ∧
      ResolvedSystems call.host ((call.entered world).journal.items runId) := by
  refine ⟨usable.actionCode ▸ still.run, fun item member => ?_⟩
  obtain ⟨package, listed, same⟩ := List.mem_map.mp (still.systems item member)
  rw [← same]
  exact usable.resolved package listed

/-- One call: as long as the key is there the run goes on with the same packages, and
the call is refused. -/
theorem StillInterrupted.call (still : StillInterrupted actionCode packages runId world)
    {call : ExecuteCall σ} (usable : call.Usable actionCode packages)
    (active : (call.recovered world).journal.activeRun ≠ none) :
    StillInterrupted actionCode packages runId (call.recovered world) ∧
      ((call.recovered world).journal.items runId).map (·.package) =
        (world.journal.items runId).map (·.package) ∧
      call.run world = some { ok := false, world := call.recovered world } := by
  obtain ⟨entered, resolved⟩ := still.entered usable
  obtain ⟨_, _, _, _, _, _, _, reached⟩ := recoverInterruptedRun_outcome entered resolved active
  have run := reached.run entered
  have same : ((call.recovered world).journal.items runId).map (·.package) =
      (world.journal.items runId).map (·.package) := reached.packages
  have keys := congrArg (List.map recordKey) same
  simp only [List.map_map, Function.comp_def] at keys
  refine ⟨⟨usable.actionCode ▸ run, ?_, fun item member => ?_⟩, same, ?_⟩
  · rw [DistinctRecordKeys, keys]
    exact still.distinct
  · have listed := List.mem_map_of_mem (f := JournalItem.package) member
    rw [same] at listed
    obtain ⟨old, present, equal⟩ := List.mem_map.mp listed
    exact equal ▸ still.systems old present
  · obtain ⟨stored, known, _⟩ := run.stored
    have found : (call.recovered world).journal.getActiveRun = some (runId, stored) :=
      Journal.getActiveRun_eq_some.2 ⟨run.active, run.named, known⟩
    rw [ExecuteCall.recovered] at found ⊢
    simp [ExecuteCall.run, execute, usable.journaled, found]

/-- The run has shrunk, on a build that executes every group. -/
theorem StillInterrupted.shrinks (still : StillInterrupted actionCode packages runId world)
    {call : ExecuteCall σ} (usable : call.Usable actionCode packages)
    (posix : call.config.platform = .posix) (active : (call.recovered world).journal.activeRun ≠ none) :
    pendingCount ((call.recovered world).journal.items runId) <
      pendingCount (world.journal.items runId) := by
  obtain ⟨entered, resolved⟩ := still.entered usable
  exact recoverInterruptedRun_progress posix entered resolved still.distinct active

theorem recovered_of_activeRun_none (free : world.journal.activeRun = none) (call : ExecuteCall σ) :
    call.recovered world = call.entered world := by
  have inactive : world.journal.getActiveRun = none := by simp [Journal.getActiveRun, free]
  simp [ExecuteCall.recovered, ExecuteCall.entered, recoverInterruptedRun, recoverPendingTaskGroups, inactive]

theorem recoveredAfter_concat (calls : List (ExecuteCall σ)) (call : ExecuteCall σ) (world : World σ) :
    recoveredAfter (calls ++ [call]) world = call.recovered (recoveredAfter calls world) := by
  simp [recoveredAfter]

/-- A sequence of calls: the key is cleared, or every one of them has shrunk the run. -/
theorem recoveredAfter_cases (still : StillInterrupted actionCode packages runId world)
    (calls : List (ExecuteCall σ)) (usable : ∀ call ∈ calls, call.Usable actionCode packages)
    (posix : ∀ call ∈ calls, call.config.platform = .posix) :
    (recoveredAfter calls world).journal.activeRun = none ∨
      (StillInterrupted actionCode packages runId (recoveredAfter calls world) ∧
        pendingCount ((recoveredAfter calls world).journal.items runId) + calls.length ≤
          pendingCount (world.journal.items runId)) := by
  induction calls using List.reverseRecOn with
  | nil => exact Or.inr ⟨still, Nat.le_refl _⟩
  | append_singleton calls call ih =>
      rw [recoveredAfter_concat]
      rcases ih (fun other member => usable other (List.mem_append_left _ member))
        (fun other member => posix other (List.mem_append_left _ member)) with cleared | ⟨reached, spent⟩
      · rw [recovered_of_activeRun_none cleared]
        exact Or.inl cleared
      cases active : (call.recovered (recoveredAfter calls world)).journal.activeRun with
      | none => exact Or.inl rfl
      | some runId =>
          have still : (call.recovered (recoveredAfter calls world)).journal.activeRun ≠ none := by
            simp [active]
          have fewer := reached.shrinks (usable call (by simp)) (posix call (by simp)) still
          refine Or.inr ⟨(reached.call (usable call (by simp)) still).1, ?_⟩
          rw [List.length_append, List.length_singleton]
          omega

/-- If records tell the packages of the run apart, every call clears the key or deals
with an item, so the run cannot outlast more calls than it has open items. -/
theorem recovery_makes_progress (created : CreatedRun actionCode packages world.journal runId)
    (distinct : (packages.map recordKey).Nodup) (calls : List (ExecuteCall σ))
    (usable : ∀ call ∈ calls, call.Usable actionCode packages)
    (posix : ∀ call ∈ calls, call.config.platform = .posix) :
    (∀ earlier call later, calls = earlier ++ call :: later →
      (recoveredAfter earlier world).journal.activeRun ≠ none →
      (call.recovered (recoveredAfter earlier world)).journal.activeRun = none ∨
        (call.run (recoveredAfter earlier world) =
            some { ok := false, world := call.recovered (recoveredAfter earlier world) } ∧
          pendingCount ((call.recovered (recoveredAfter earlier world)).journal.items runId) <
            pendingCount ((recoveredAfter earlier world).journal.items runId))) ∧
      (pendingCount (world.journal.items runId) < calls.length →
        (recoveredAfter calls world).journal.activeRun = none) := by
  obtain ⟨run, systems, keys⟩ := created.interruptedRun
  have still : StillInterrupted actionCode packages runId world := ⟨run, keys distinct, systems⟩
  constructor
  · intro earlier call later split active
    have listed : ∀ other ∈ earlier, other ∈ calls := by
      intro other member
      rw [split]
      exact List.mem_append_left _ member
    have present : call ∈ calls := by rw [split]; simp
    rcases recoveredAfter_cases still earlier (fun other member => usable other (listed other member))
      (fun other member => posix other (listed other member)) with cleared | ⟨reached, _⟩
    · exact absurd cleared active
    · cases after : (call.recovered (recoveredAfter earlier world)).journal.activeRun with
      | none => exact Or.inl rfl
      | some other =>
          have stillActive : (call.recovered (recoveredAfter earlier world)).journal.activeRun ≠ none := by
            simp [after]
          obtain ⟨_, _, refused⟩ := reached.call (usable call present) stillActive
          exact Or.inr ⟨refused, reached.shrinks (usable call present) (posix call present) stillActive⟩
  · intro many
    rcases recoveredAfter_cases still calls usable posix with cleared | ⟨_, spent⟩
    · exact cleared
    · omega

end Runs

section Examples

/-- A call with nothing of its own to do, by plugins that do what they are asked to do. -/
def plainCall : ExecuteCall Unit where
  host := obligingHost fun _ => false
  plugins := ()

/-- The journal of a run with the packages as its items, in the given statuses. -/
def journalWith (packages : List Package) (statuses : List ItemStatus) : Journal where
  activeRun := some "t-2"
  runs := Function.update (fun _ => none) "t-2" (some { state := .opened })
  items := Function.update (fun _ => []) "t-2"
    ((packages.zip statuses).zipIdx.map fun entry =>
      { sequence := entry.2, package := storedPackage entry.1.1, status := entry.1.2 })

/-- Two files of the same name. -/
def sameNameWheels : List Package :=
  [{ action := .install, system := "pip", name := "tool.whl", sourcePath := "/a/tool.whl", localTarget := true },
    { action := .install, system := "pip", name := "tool.whl", sourcePath := "/b/tool.whl", localTarget := true }]

theorem journalWith_created (first second : Package) (firstStatus secondStatus : ItemStatus)
    (apart : itemId (fun _ => 0) (storedPackage first) ≠ itemId (fun _ => 0) (storedPackage second)) :
    CreatedRun (fun _ => 0) [first, second] (journalWith [first, second] [firstStatus, secondStatus])
      "t-2" where
  active := rfl
  stored := ⟨{ state := .opened }, rfl, by decide⟩
  created := by
    have named : "t" ++ "-" ++ toString [first, second].length = "t-2" := by
      rw [List.length_cons, List.length_singleton]
      decide
    obtain ⟨started, made, items⟩ : ∃ started : Journal,
        ({} : Journal).createRun (fun _ => 0) "t" [first, second] [] = some ("t-2", started) ∧
        started.items "t-2" = [Journal.plannedItem (first, 0), Journal.plannedItem (second, 1)] := by
      rw [Journal.createRun, if_pos (by decide)]
      simp only [named]
      exact ⟨_, rfl, by simp [Journal.putItem, Journal.plannedItem, apart]⟩
    refine ⟨{}, "t", [], started, rfl, made, ?_⟩
    simp [items, journalWith, Journal.plannedItem]

/-- A world that holds such a journal and nothing else. -/
def interruptedWorld (packages : List Package) (statuses : List ItemStatus) : World Unit where
  plugins := ()
  journal := journalWith packages statuses

theorem recovery_makes_progress_chain :
    (recoveredAfter [plainCall, plainCall, plainCall]
      (interruptedWorld interpreterAndModule [.running, .planned])).journal.activeRun = none := by
  have created : CreatedRun (fun _ => 0) interpreterAndModule
      (interruptedWorld interpreterAndModule [.running, .planned]).journal "t-2" :=
    journalWith_created _ _ _ _ (by decide)
  have usable : ∀ call ∈ [plainCall, plainCall, plainCall],
      call.Usable (fun _ => 0) interpreterAndModule := by
    intro call member
    obtain rfl : call = plainCall := by simpa using member
    exact ⟨rfl, rfl, fun _ _ => rfl⟩
  have posix : ∀ call ∈ [plainCall, plainCall, plainCall], call.config.platform = .posix := by
    intro call member
    obtain rfl : call = plainCall := by simpa using member
    rfl
  exact (recovery_makes_progress created (by decide) _ usable posix).2 (by decide)

/-- The record of the second file is written under the first one, which is done
already: the second file stays open and the run stays active. -/
theorem second_wheel_stays_open :
    CreatedRun (fun _ => 0) sameNameWheels
      (interruptedWorld sameNameWheels [.success, .planned]).journal "t-2" ∧
    sameNameWheels.Pairwise (fun left right => samePackage left right = false) ∧
    plainCall.Usable (fun _ => 0) sameNameWheels ∧ plainCall.config.platform = .posix ∧
    ∃ after, plainCall.recovered (interruptedWorld sameNameWheels [.success, .planned]) = after ∧
      after.journal.activeRun = some "t-2" ∧
      pendingCount (after.journal.items "t-2") =
        pendingCount ((interruptedWorld sameNameWheels [.success, .planned]).journal.items "t-2") :=
  ⟨journalWith_created _ _ _ _ (by decide), by decide, ⟨rfl, rfl, fun _ _ => rfl⟩, rfl,
    _, rfl, by decide, by decide⟩

end Examples

end ReqPack.Executor
