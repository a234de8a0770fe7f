import ReqPack.Executor.UpdateProgress

/-! # The results of system updates

The bits that the workers store, compared with those of the sequential path.  A
word that was read before another worker stored its bit takes that bit back.
-/

namespace ReqPack.Executor

open ReqPack.Data ReqPack.Core ReqPack.Planner ReqPack.Scheduler

section Memory

variable {width : Nat} {tasks : List UpdateTask} {outcome : TaskGroup → Bool} {current next : UpdateRun}
  {event : UpdateEvent}

/-- What one step does to the result bits and to the words the workers have read. -/
inductive MemoryMove (width : Nat) (tasks : List UpdateTask) (outcome : TaskGroup → Bool)
    (current next : UpdateRun) : Prop where
  | keep (results : next.results = current.results) (stores : next.stores = current.stores)
      (words : ∀ worker index ok word, next.workers worker = .loaded index ok word →
        current.workers worker = .loaded index ok word ∨ word = readWord width current.results (slotAt tasks index))
  | store (worker index : Nat) (word : Nat → Bool)
      (before : current.workers worker = .loaded index (outcomeAt tasks outcome index) word)
      (results : next.results = writeWord width current.results (slotAt tasks index)
        (setInWord width word (slotAt tasks index) (outcomeAt tasks outcome index)))
      (stores : next.stores = current.stores ++ [index])
      (words : ∀ other index ok word, next.workers other = .loaded index ok word →
        other ≠ worker ∧ current.workers other = .loaded index ok word)

theorem setPhase_loaded {worker other index : Nat} {ok : Bool} {word : Nat → Bool} {phase : UpdatePhase}
    (loaded : (current.setPhase worker phase).workers other = .loaded index ok word) :
    other ≠ worker ∧ current.workers other = .loaded index ok word ∨ phase = .loaded index ok word := by
  by_cases here : other = worker
  · rw [here, setPhase_self] at loaded
    exact Or.inr loaded
  · rw [setPhase_ne here] at loaded
    exact Or.inl ⟨here, loaded⟩

/-- A step that neither reads nor writes a word. -/
theorem memory_quiet {worker : Nat} {phase : UpdatePhase} {state : ParallelUpdateState} {starts : List Nat}
    (plain : ∀ index ok word, phase ≠ .loaded index ok word) :
    MemoryMove width tasks outcome current
      ({ current with state := state, starts := starts }.setPhase worker phase) := by
  refine .keep rfl rfl fun other index ok word loaded => ?_
  rcases setPhase_loaded loaded with ⟨-, same⟩ | impossible
  · exact Or.inl same
  · exact absurd impossible (plain index ok word)

theorem UpdateMove.memory (valid : UpdateInvariant tasks outcome current)
    (move : UpdateMove width tasks outcome current event next) : MemoryMove width tasks outcome current next := by
  cases move with
  | leave bound before resting scanned => exact memory_quiet (by simp)
  | wait bound before working scanned => exact memory_quiet (by simp)
  | start bound before scanned => exact memory_quiet (by simp)
  | execute before => exact memory_quiet (by simp)
  | load before =>
      refine .keep rfl rfl fun other index ok word loaded => ?_
      rcases setPhase_loaded loaded with ⟨-, same⟩ | own
      · exact Or.inl same
      · cases own
        exact Or.inr rfl
  | @store worker index ok word before =>
      obtain rfl := valid.honest worker index ok (by rw [before]; rfl)
      refine .store worker index word before rfl rfl fun other index ok word loaded => ?_
      rcases setPhase_loaded loaded with same | impossible
      · exact same
      · cases impossible
  | complete before => exact memory_quiet (by simp)
  | @notify worker before =>
      refine .keep rfl rfl fun other index ok word loaded => Or.inl ?_
      have woken : (Function.update current.workers worker .picking other).woken = .loaded index ok word := loaded
      by_cases here : other = worker
      · rw [here, Function.update_self] at woken
        cases woken
      · rw [Function.update_of_ne here] at woken
        rcases UpdatePhase.woken_eq (current.workers other) with same | ⟨picking, -⟩
        · exact same.symm.trans woken
        · rw [picking] at woken
          cases woken
  | wake before => exact memory_quiet (by simp)

/-! ## No bit is set without reason -/

/-- A successful task stored its result in this bit. -/
def StoredSuccess (tasks : List UpdateTask) (outcome : TaskGroup → Bool) (stores : List Nat) (slot : Nat) : Prop :=
  ∃ index ∈ stores, slotAt tasks index = slot ∧ outcomeAt tasks outcome index = true

theorem StoredSuccess.append {stores : List Nat} {slot : Nat} (success : StoredSuccess tasks outcome stores slot)
    (index : Nat) : StoredSuccess tasks outcome (stores ++ [index]) slot := by
  obtain ⟨task, member, own, ok⟩ := success
  exact ⟨task, List.mem_append_left _ member, own, ok⟩

structure BitsJustified (width : Nat) (tasks : List UpdateTask) (outcome : TaskGroup → Bool) (current : UpdateRun) :
    Prop where
  results : ∀ slot, current.results slot = true → StoredSuccess tasks outcome current.stores slot
  words : ∀ worker index ok word, current.workers worker = .loaded index ok word →
    ∀ slot, slot / width = slotAt tasks index / width → word (slot % width) = true →
      StoredSuccess tasks outcome current.stores slot

theorem BitsJustified.move (justified : BitsJustified width tasks outcome current)
    (move : MemoryMove width tasks outcome current next) : BitsJustified width tasks outcome next := by
  cases move with
  | keep results stores words =>
      refine ⟨by rw [results, stores]; exact justified.results, ?_⟩
      rw [stores]
      intro worker index ok word loaded slot same set
      rcases words worker index ok word loaded with before | rfl
      · exact justified.words worker index ok word before slot same set
      · rw [readWord_apply same] at set
        exact justified.results slot set
  | store worker index word before results stores words =>
      constructor
      · intro slot set
        rw [stores]
        rw [results] at set
        by_cases own : slot = slotAt tasks index
        · rw [own, writeWord_self] at set
          exact ⟨index, List.mem_append_right _ (List.mem_singleton.mpr rfl), own.symm, set⟩
        · by_cases same : slot / width = slotAt tasks index / width
          · rw [writeWord_same same own] at set
            exact (justified.words worker index _ word before slot same set).append index
          · rw [writeWord_elsewhere same] at set
            exact (justified.results slot set).append index
      · intro other task ok word loaded slot same set
        rw [stores]
        exact (justified.words other task ok word (words other task ok word loaded).2 slot same set).append index

/-! ## Bits that are not taken back -/

/-- No successful task shares a word with a task of another system. -/
def SuccessesApart (width : Nat) (tasks : List UpdateTask) (outcome : TaskGroup → Bool) : Prop :=
  ∀ index < tasks.length, ∀ other < tasks.length, systemAt tasks index ≠ systemAt tasks other →
    slotAt tasks index / width = slotAt tasks other / width → outcomeAt tasks outcome index = false

structure BitsKept (width : Nat) (tasks : List UpdateTask) (outcome : TaskGroup → Bool) (current : UpdateRun) :
    Prop where
  results : ∀ slot, StoredSuccess tasks outcome current.stores slot → current.results slot = true
  words : ∀ worker index ok word, current.workers worker = .loaded index ok word →
    ∀ slot, slot / width = slotAt tasks index / width → StoredSuccess tasks outcome current.stores slot →
      word (slot % width) = true

theorem holds_loaded {worker index : Nat} {ok : Bool} {word : Nat → Bool}
    (loaded : current.workers worker = .loaded index ok word) : current.holds worker = some index := by
  rw [UpdateRun.holds, loaded]
  rfl

theorem UpdateInvariant.holds_lt (valid : UpdateInvariant tasks outcome current) {worker index : Nat}
    (held : current.holds worker = some index) : index < tasks.length :=
  valid.ledger.bounded index (valid.holders.held worker index held)

theorem BitsKept.move (distinct : DistinctSlots tasks) (apart : SuccessesApart width tasks outcome)
    (valid : UpdateInvariant tasks outcome current) (kept : BitsKept width tasks outcome current)
    (move : MemoryMove width tasks outcome current next) : BitsKept width tasks outcome next := by
  cases move with
  | keep results stores words =>
      refine ⟨by rw [results, stores]; exact kept.results, ?_⟩
      rw [stores]
      intro worker index ok word loaded slot same success
      rcases words worker index ok word loaded with before | rfl
      · exact kept.words worker index ok word before slot same success
      · rw [readWord_apply same]
        exact kept.results slot success
  | store worker index word before results stores words =>
      have held := holds_loaded before
      have unstored := valid.fresh worker index (by rw [before]; rfl)
      constructor
      · rw [stores, results]
        rintro slot ⟨task, member, rfl, ok⟩
        rcases List.mem_append.mp member with earlier | last
        · have different : slotAt tasks task ≠ slotAt tasks index := by
            intro equal
            have bound := valid.ledger.bounded task (valid.stored task earlier)
            exact unstored (slotAt_inj distinct bound (valid.holds_lt held) equal ▸ earlier)
          have success : StoredSuccess tasks outcome current.stores (slotAt tasks task) := ⟨task, earlier, rfl, ok⟩
          by_cases same : slotAt tasks task / width = slotAt tasks index / width
          · rw [writeWord_same same different]
            exact kept.words worker index _ word before _ same success
          · rw [writeWord_elsewhere same]
            exact kept.results _ success
        · rw [List.mem_singleton.mp last] at ok ⊢
          rw [writeWord_self, ok]
      · intro other task ok' word' loaded slot same success
        obtain ⟨different, loaded⟩ := words other task ok' word' loaded
        rw [stores] at success
        obtain ⟨stored, member, rfl, ok⟩ := success
        rcases List.mem_append.mp member with earlier | last
        · exact kept.words other task ok' word' loaded _ same ⟨stored, earlier, rfl, ok⟩
        · -- the other worker holds a word of a task of the same system, which cannot be
          rw [List.mem_singleton.mp last] at ok same
          have otherHeld := holds_loaded loaded
          by_cases system : systemAt tasks task = systemAt tasks index
          · exact absurd (valid.holders.alone other worker task index otherHeld held system) different
          · rw [apart index (valid.holds_lt held) task (valid.holds_lt otherHeld) (Ne.symm system) same] at ok
            cases ok

/-! ## A bit that was taken back -/

/-- The result of a successful task is stored and gone, and no worker has read it. -/
structure BitLost (width : Nat) (tasks : List UpdateTask) (index : Nat) (current : UpdateRun) : Prop where
  stored : index ∈ current.stores
  result : current.results (slotAt tasks index) = false
  words : ∀ worker other ok word, current.workers worker = .loaded other ok word →
    slotAt tasks index / width = slotAt tasks other / width → word (slotAt tasks index % width) = false

theorem BitLost.move (distinct : DistinctSlots tasks) {index : Nat} (valid : UpdateInvariant tasks outcome current)
    (lost : BitLost width tasks index current) (move : MemoryMove width tasks outcome current next) :
    BitLost width tasks index next := by
  cases move with
  | keep results stores words =>
      refine ⟨by rw [stores]; exact lost.stored, by rw [results]; exact lost.result, ?_⟩
      intro worker other ok word loaded same
      rcases words worker other ok word loaded with before | rfl
      · exact lost.words worker other ok word before same
      · rw [readWord_apply same]
        exact lost.result
  | store worker other word before results stores words =>
      have unstored := valid.fresh worker other (by rw [before]; rfl)
      have different : slotAt tasks index ≠ slotAt tasks other := by
        intro equal
        have bound := valid.ledger.bounded index (valid.stored index lost.stored)
        exact unstored (slotAt_inj distinct bound (valid.holds_lt (holds_loaded before)) equal ▸ lost.stored)
      refine ⟨by rw [stores]; exact List.mem_append_left _ lost.stored, ?_, fun holder task ok word loaded =>
        lost.words holder task ok word (words holder task ok word loaded).2⟩
      rw [results]
      by_cases same : slotAt tasks index / width = slotAt tasks other / width
      · rw [writeWord_same same different]
        exact lost.words worker other _ word before same
      · rw [writeWord_elsewhere same]
        exact lost.result

end Memory

/-! ## Whole runs -/

section Runs

variable {width : Nat} {tasks : List UpdateTask} {outcome : TaskGroup → Bool} {current final : UpdateRun}
  {events : List UpdateEvent} {workerCount : Nat}

/-- The invariant rule for what a step does to the memory. -/
theorem runEvents_memory {property : UpdateRun → Prop}
    (preserved : ∀ state next, UpdateInvariant tasks outcome state → property state →
      MemoryMove width tasks outcome state next → property next)
    (valid : UpdateInvariant tasks outcome current) (initially : property current)
    (run : runEvents (updateStep width tasks outcome false) current events = some final) :
    UpdateInvariant tasks outcome final ∧ property final := by
  refine @runEvents_invariant _ _ _ (fun state => UpdateInvariant tasks outcome state ∧ property state) ?_ _ _ _
    ⟨valid, initially⟩ run
  rintro state event next ⟨valid, holds⟩ accepted
  have move := updateStep_move valid.ledger.launching accepted
  exact ⟨valid.move move, preserved state next valid holds (move.memory valid)⟩

theorem updateWithWorkers_justified
    (run : updateWithWorkers width tasks outcome false workerCount events = some final) :
    BitsJustified width tasks outcome final :=
  (runEvents_memory (fun _ _ _ justified move => BitsJustified.move justified move)
    (updateInvariant_initial tasks outcome workerCount)
    ⟨by simp [initialUpdate], by simp [initialUpdate]⟩ run).2

theorem updateWithWorkers_kept (distinct : DistinctSlots tasks) (apart : SuccessesApart width tasks outcome)
    (run : updateWithWorkers width tasks outcome false workerCount events = some final) :
    BitsKept width tasks outcome final :=
  (runEvents_memory (fun _ _ valid kept move => BitsKept.move distinct apart valid kept move)
    (updateInvariant_initial tasks outcome workerCount)
    ⟨by simp [initialUpdate, StoredSuccess], by simp [initialUpdate]⟩ run).2

theorem updateWithWorkers_workerCount
    (run : updateWithWorkers width tasks outcome false workerCount events = some final) :
    final.workerCount = workerCount := by
  have both := @runEvents_invariant _ _ _
    (fun state => UpdateInvariant tasks outcome state ∧ state.workerCount = workerCount)
    (fun state event next ⟨valid, count⟩ accepted =>
      have move := updateStep_move valid.ledger.launching accepted
      ⟨valid.move move, move.workerCount.trans count⟩) _ _ _
    ⟨updateInvariant_initial tasks outcome workerCount, rfl⟩ run
  exact both.2

/-- When the workers have left, every task has been started and its result stored. -/
theorem UpdateInvariant.terminated (valid : UpdateInvariant tasks outcome final) (workers : 0 < final.workerCount)
    (ended : final.Terminated) :
    ∀ index < tasks.length, index ∈ final.starts ∧ index ∈ final.stores := by
  intro index bound
  obtain ⟨nobody, started⟩ := valid.exited 0 (ended 0 workers)
  refine ⟨started index bound, (valid.opened index (started index bound)).resolve_right ?_⟩
  rintro ⟨worker, pending⟩
  have none := nobody worker
  rw [UpdateRun.holds, UpdatePhase.pending_task pending] at none
  cases none

/-! ## The sequential path -/

theorem updateInOrder_apply {slot : Nat} (distinct : DistinctSlots tasks) (results : Nat → Bool) :
    updateInOrder width outcome false tasks results slot = true ↔
      (∃ task ∈ tasks, task.requestIndex = slot ∧ outcome task.taskGroup = true) ∨
        results slot = true ∧ ∀ task ∈ tasks, task.requestIndex ≠ slot := by
  induction tasks generalizing results with
  | nil => simp [updateInOrder]
  | cons task tasks ih =>
      obtain ⟨new, distinct⟩ := List.nodup_cons.mp distinct
      simp only [updateInOrder, Bool.and_false, Bool.false_eq_true, if_false, storeBit_eq, ih distinct,
        List.exists_mem_cons_iff, List.forall_mem_cons]
      by_cases own : task.requestIndex = slot
      · subst slot
        have others : ∀ other ∈ tasks, other.requestIndex ≠ task.requestIndex := fun other member same =>
          new (List.mem_map.mpr ⟨other, member, same⟩)
        have none : ¬ ∃ other ∈ tasks, other.requestIndex = task.requestIndex ∧ outcome other.taskGroup = true := by
          rintro ⟨other, member, same, -⟩
          exact others other member same
        simp only [none, or_false, Function.update_self, true_and, ne_eq, not_true_eq_false, false_and, and_false]
        exact ⟨fun tail => tail.elim False.elim And.left, fun ok => Or.inr ⟨ok, others⟩⟩
      · rw [Function.update_of_ne (Ne.symm own)]
        simp [own]

/-- The sequential path sets exactly the bits of the successful tasks. -/
theorem updateInOrder_iff {slot : Nat} (distinct : DistinctSlots tasks) :
    updateInOrder width outcome false tasks (fun _ => false) slot = true ↔
      ∃ index < tasks.length, slotAt tasks index = slot ∧ outcomeAt tasks outcome index = true := by
  rw [updateInOrder_apply distinct]
  simp only [Bool.false_eq_true, false_and, or_false]
  constructor
  · rintro ⟨task, member, own, ok⟩
    obtain ⟨index, bound, rfl⟩ := List.mem_iff_getElem.mp member
    refine ⟨index, bound, ?_, ?_⟩
    · rw [slotAt, List.getD_eq_getElem?_getD, List.getElem?_eq_getElem bound]
      exact own
    · rw [outcomeAt, List.getD_eq_getElem?_getD, List.getElem?_eq_getElem bound]
      exact ok
  · rintro ⟨index, bound, own, ok⟩
    rw [slotAt, List.getD_eq_getElem?_getD, List.getElem?_eq_getElem bound] at own
    rw [outcomeAt, List.getD_eq_getElem?_getD, List.getElem?_eq_getElem bound] at ok
    exact ⟨_, List.getElem_mem bound, own, ok⟩

/-- With successes kept apart, the workers leave behind the bits of the sequential path. -/
theorem results_eq_sequential (distinct : DistinctSlots tasks) (apart : SuccessesApart width tasks outcome)
    (workers : 0 < workerCount)
    (run : updateWithWorkers width tasks outcome false workerCount events = some final) (ended : final.Terminated) :
    final.results = updateInOrder width outcome false tasks fun _ => false := by
  have valid := updateWithWorkers_invariant run
  have stored := valid.terminated (by rwa [updateWithWorkers_workerCount run]) ended
  funext slot
  rw [Bool.eq_iff_iff, updateInOrder_iff distinct]
  constructor
  · intro set
    obtain ⟨index, member, own, ok⟩ := (updateWithWorkers_justified run).results slot set
    exact ⟨index, valid.ledger.bounded index (valid.stored index member), own, ok⟩
  · rintro ⟨index, bound, own, ok⟩
    exact (updateWithWorkers_kept distinct apart run).results slot ⟨index, (stored index bound).2, own, ok⟩

end Runs

end ReqPack.Executor
