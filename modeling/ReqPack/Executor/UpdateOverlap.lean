import ReqPack.Executor.UpdateResults

/-! # Overlapping updates

Two tasks of different systems can always be brought to run at the same time.  When
their results share a word, the store of one of them can be taken back.
-/

namespace ReqPack.Executor

open ReqPack.Data ReqPack.Core ReqPack.Planner ReqPack.Scheduler

variable {width : Nat} {tasks : List UpdateTask} {outcome : TaskGroup → Bool} {current next : UpdateRun}

/-! ## Bringing a task to run -/

theorem pickTask_start {state : ParallelUpdateState} {front rest : List Nat} {target : Nat}
    (launching : state.stopLaunching = false) (queue : state.readyIndices = front ++ target :: rest)
    (passed : ∀ index ∈ front, state.started index = false ∧ busyAt tasks state index = true)
    (fresh : state.started target = false) (free : busyAt tasks state target = false) :
    pickTask tasks state = (.start target, startTask tasks state target (rest ++ front)) := by
  have scanned : scanTasks tasks state state.readyIndices.length state.readyIndices = (some target, rest ++ front) := by
    rw [scanTasks_eq, queue]
    exact scanQueue_first (by simp) passed fresh free
  rw [pickTask, if_neg (by simp [launching, queue]), scanned]
  rfl

section Accepted

variable {worker index : Nat} {ok : Bool} {word : Nat → Bool}

theorem accept_start {queue : List Nat} {target : Nat} (bound : worker < current.workerCount)
    (before : current.workers worker = .picking)
    (picked : pickTask tasks current.state = (.start target, startTask tasks current.state target queue)) :
    updateStep width tasks outcome false current (.pick worker) = some ({ current with
      state := startTask tasks current.state target queue
      starts := current.starts ++ [target] }.setPhase worker (.executing target)) := by
  simp only [updateStep, before, if_pos bound, picked]

theorem accept_execute (before : current.workers worker = .executing index) :
    updateStep width tasks outcome false current (.execute worker) =
      some (current.setPhase worker (.executed index (outcomeAt tasks outcome index))) := by
  simp only [updateStep, before]

theorem accept_load (before : current.workers worker = .executed index ok) :
    updateStep width tasks outcome false current (.load worker) =
      some (current.setPhase worker (.loaded index ok (readWord width current.results (slotAt tasks index)))) := by
  simp only [updateStep, before]

theorem accept_store (before : current.workers worker = .loaded index ok word) :
    updateStep width tasks outcome false current (.store worker) = some ({ current with
      results := writeWord width current.results (slotAt tasks index) (setInWord width word (slotAt tasks index) ok)
      stores := current.stores ++ [index] }.setPhase worker (.stored index ok)) := by
  simp only [updateStep, before]

theorem accept_complete (before : current.workers worker = .stored index ok) :
    updateStep width tasks outcome false current (.complete worker) = some ({ current with
      state := completeTask tasks false current.state index ok }.setPhase worker .notifying) := by
  simp only [updateStep, before]

theorem accept_notify (before : current.workers worker = .notifying) :
    updateStep width tasks outcome false current (.notify worker) = some { current with
      workers := fun other => (Function.update current.workers worker .picking other).woken } := by
  simp only [updateStep, before]

end Accepted

/-- The six steps in which a worker runs the task it picks, all by itself. -/
def soloEvents (worker : Nat) : List UpdateEvent :=
  [.pick worker, .execute worker, .load worker, .store worker, .complete worker, .notify worker]

/-- A worker that nobody waits for runs one task and is back where it was. -/
theorem solo_run {worker target : Nat} {front rest : List Nat} (bound : worker < current.workerCount)
    (picking : current.workers worker = .picking) (awake : ∀ other, current.workers other ≠ .waiting)
    (launching : current.state.stopLaunching = false) (queue : current.state.readyIndices = front ++ target :: rest)
    (passed : ∀ index ∈ front, current.state.started index = false ∧ busyAt tasks current.state index = true)
    (fresh : current.state.started target = false) (free : busyAt tasks current.state target = false) :
    ∃ after, runEvents (updateStep width tasks outcome false) current (soloEvents worker) = some after ∧
      after.workerCount = current.workerCount ∧ after.workers = current.workers ∧
      after.state.readyIndices = rest ++ front ∧ after.state.busySystems = current.state.busySystems ∧
      after.state.started = Function.update current.state.started target true ∧
      after.state.stopLaunching = false := by
  have picked := pickTask_start launching queue passed fresh free
  refine ⟨_, runEvents_cons_of (accept_start bound picking picked)
    (runEvents_cons_of (accept_execute setPhase_self) (runEvents_cons_of (accept_load setPhase_self)
      (runEvents_cons_of (accept_store setPhase_self) (runEvents_cons_of (accept_complete setPhase_self)
        (runEvents_cons_of (accept_notify setPhase_self) rfl))))), rfl, ?_, ?_⟩
  · funext other
    by_cases here : other = worker
    · simp [here, picking, UpdatePhase.woken]
    · simp only [UpdateRun.setPhase, Function.update_of_ne here]
      cases phase : current.workers other <;> first | rfl | exact absurd phase (awake other)
  · simp only [UpdateRun.setPhase, completeTask_eq]
    refine ⟨rfl, ?_, rfl, launching⟩
    exact Finset.erase_insert (of_decide_eq_false free)

/-- Nobody waits, and the queue holds tasks that are still to be started, each once. -/
structure Launching (current : UpdateRun) : Prop where
  launching : current.state.stopLaunching = false
  awake : ∀ worker, current.workers worker ≠ .waiting
  nodup : current.state.readyIndices.Nodup
  fresh : ∀ index ∈ current.state.readyIndices, current.state.started index = false

/-- What is left of a queue after one of its tasks was taken. -/
theorem Launching.behind (launching : Launching current) {front rest : List Nat} {target : Nat}
    (queue : current.state.readyIndices = front ++ target :: rest) :
    (rest ++ front).Nodup ∧
      ∀ index ∈ rest ++ front, Function.update current.state.started target true index = false := by
  have distinct := launching.nodup
  rw [queue] at distinct
  have rotated : (target :: (rest ++ front)).Nodup :=
    (@List.perm_append_comm _ front (target :: rest)).nodup_iff.mp distinct
  obtain ⟨absent, nodup⟩ := List.nodup_cons.mp rotated
  refine ⟨nodup, fun index member => ?_⟩
  have different : index ≠ target := by
    rintro rfl
    exact absent member
  rw [Function.update_of_ne different]
  apply launching.fresh
  rw [queue]
  simp only [List.mem_append, List.mem_cons] at member ⊢
  tauto

/-- A worker can get to any task of the queue whose system is free: it runs those before
it by itself. -/
theorem reach_task (width : Nat) (outcome : TaskGroup → Bool) {worker target : Nat} (front back : List Nat)
    (bound : worker < current.workerCount) (picking : current.workers worker = .picking)
    (launching : Launching current) (queue : current.state.readyIndices = front ++ target :: back)
    (free : busyAt tasks current.state target = false) :
    ∃ events after, runEvents (updateStep width tasks outcome false) current events = some after ∧
      after.workerCount = current.workerCount ∧
      after.workers = Function.update current.workers worker (.executing target) ∧
      after.state.busySystems = insert (systemAt tasks target) current.state.busySystems ∧
      Launching after ∧ ∀ index ∈ back, index ∈ after.state.readyIndices := by
  induction size : front.length using Nat.strong_induction_on generalizing current front back with
  | _ size ih =>
      have fresh : current.state.started target = false := launching.fresh target (by rw [queue]; simp)
      cases found : front.find? fun index => !busyAt tasks current.state index with
      | none =>
          -- everything before the task is kept waiting
          have passed : ∀ index ∈ front,
              current.state.started index = false ∧ busyAt tasks current.state index = true := by
            intro index member
            refine ⟨launching.fresh index (by rw [queue]; exact List.mem_append_left _ member), ?_⟩
            simpa using List.find?_eq_none.mp found index member
          have picked := pickTask_start launching.launching queue passed fresh free
          obtain ⟨nodup, still⟩ := launching.behind queue
          refine ⟨[.pick worker], _, runEvents_cons_of (accept_start bound picking picked) rfl, rfl, rfl, rfl,
            ⟨launching.launching, fun other => ?_, nodup, still⟩, fun index member =>
              List.mem_append_left _ member⟩
          by_cases here : other = worker
          · rw [here, setPhase_self]
            simp
          · rw [setPhase_ne here]
            exact launching.awake other
      | some first =>
          obtain ⟨idle, before, behind, split, passed⟩ := List.find?_eq_some_iff_append.mp found
          have idle : busyAt tasks current.state first = false := by simpa using idle
          have whole : current.state.readyIndices = before ++ first :: (behind ++ target :: back) := by
            rw [queue, split]
            simp
          have blocked : ∀ index ∈ before,
              current.state.started index = false ∧ busyAt tasks current.state index = true := by
            intro index member
            exact ⟨launching.fresh index (by rw [whole]; exact List.mem_append_left _ member),
              by simpa using passed index member⟩
          obtain ⟨middle, run, count, workers, ready, busy, started, stop⟩ :=
            @solo_run width tasks outcome current worker first before (behind ++ target :: back) bound picking
              launching.awake launching.launching whole blocked
              (launching.fresh first (by rw [whole]; simp)) idle
          obtain ⟨nodup, still⟩ := launching.behind whole
          have again : Launching middle :=
            ⟨stop, by rw [workers]; exact launching.awake, by rw [ready]; exact nodup,
              by rw [ready, started]; exact still⟩
          obtain ⟨events, after, rest, count', workers', busy', launched, kept⟩ :=
            ih behind.length (by rw [← size, split, List.length_append, List.length_cons]; omega) behind (back ++ before)
              (by rw [count]; exact bound) (by rw [workers]; exact picking) again (by rw [ready]; simp)
              (by rw [busyAt, busy]; exact free) rfl
          refine ⟨soloEvents worker ++ events, after, by rw [runEvents_append run]; exact rest,
            count'.trans count, by rw [workers', workers], by rw [busy', busy], launched,
            fun index member => kept index (List.mem_append_left _ member)⟩

theorem launching_initial (tasks : List UpdateTask) (workerCount : Nat) :
    Launching (initialUpdate tasks workerCount) :=
  ⟨rfl, by simp [initialUpdate], List.nodup_range, by simp [initialUpdate]⟩

/-- Two workers are in the middle of two tasks, and all others are idle. -/
structure Overlap (current : UpdateRun) (worker other index task : Nat) : Prop where
  apart : worker ≠ other
  first : current.workers worker = .executing index
  second : current.workers other = .executing task
  idle : ∀ third, third ≠ worker → third ≠ other → current.workers third = .picking

theorem reach_overlap (width : Nat) (outcome : TaskGroup → Bool) {workerCount first second : Nat}
    {front back : List Nat} (several : 1 < workerCount) (queue : List.range tasks.length = front ++ first :: back)
    (member : second ∈ back) (systems : systemAt tasks first ≠ systemAt tasks second) :
    ∃ events current, updateWithWorkers width tasks outcome false workerCount events = some current ∧
      Overlap current 0 1 first second := by
  obtain ⟨events, middle, run, count, workers, busy, launching, kept⟩ :=
    @reach_task tasks (initialUpdate tasks workerCount) width outcome 0 first front back (Nat.zero_lt_of_lt several)
      rfl (launching_initial tasks workerCount) queue (by simp [busyAt, initialUpdate])
  obtain ⟨before, behind, split⟩ := List.append_of_mem (kept second member)
  have free : busyAt tasks middle.state second = false := by
    simp [busyAt, busy, initialUpdate, Ne.symm systems]
  have ready : middle.workers 1 = .picking := by
    rw [workers, Function.update_of_ne (by decide)]
    rfl
  obtain ⟨more, final, rest, -, last, -, -, -⟩ :=
    reach_task width outcome before behind (by rw [count]; exact several) ready launching split free
  refine ⟨events ++ more, final, by rw [updateWithWorkers, runEvents_append run]; exact rest, by decide, ?_, ?_, ?_⟩
  · rw [last, Function.update_of_ne (by decide), workers, Function.update_self]
  · rw [last, Function.update_self]
  · intro third notFirst notSecond
    rw [last, Function.update_of_ne notSecond, workers, Function.update_of_ne notFirst]
    rfl

theorem Overlap.symm {worker other index task : Nat} (overlap : Overlap current worker other index task) :
    Overlap current other worker task index :=
  ⟨overlap.apart.symm, overlap.second, overlap.first,
    fun third notOther notWorker => overlap.idle third notWorker notOther⟩

/-! ## Taking a bit back -/

/-- One worker reads the word, the other one stores its bit, and the first one writes
the word back. -/
theorem Overlap.lose (distinct : DistinctSlots tasks) {worker other index task : Nat}
    (valid : UpdateInvariant tasks outcome current) (justified : BitsJustified width tasks outcome current)
    (overlap : Overlap current worker other index task)
    (same : slotAt tasks index / width = slotAt tasks task / width) :
    ∃ events after, runEvents (updateStep width tasks outcome false) current events = some after ∧
      BitLost width tasks index after := by
  obtain ⟨apart, first, second, idle⟩ := overlap
  have firstHeld : current.holds worker = some index := by rw [UpdateRun.holds, first]; rfl
  have secondHeld : current.holds other = some task := by rw [UpdateRun.holds, second]; rfl
  have different : slotAt tasks index ≠ slotAt tasks task := by
    intro equal
    have tasksEqual := slotAt_inj distinct (valid.holds_lt firstHeld) (valid.holds_lt secondHeld) equal
    exact apart (valid.holders.alone worker other index task firstHeld secondHeld (by rw [tasksEqual]))
  have unset : current.results (slotAt tasks index) = false := by
    rw [← Bool.not_eq_true]
    intro set
    obtain ⟨stored, member, equal, -⟩ := justified.results _ set
    have bound := valid.ledger.bounded stored (valid.stored stored member)
    rw [slotAt_inj distinct bound (valid.holds_lt firstHeld) equal] at member
    exact valid.fresh worker index (by rw [first]; rfl) member
  refine ⟨[.execute worker, .execute other, .load other, .load worker, .store worker, .store other], _,
    runEvents_cons_of (accept_execute first)
      (runEvents_cons_of (accept_execute (by rw [setPhase_ne apart.symm]; exact second))
        (runEvents_cons_of (accept_load setPhase_self)
          (runEvents_cons_of (accept_load (by rw [setPhase_ne apart, setPhase_ne apart, setPhase_self]))
            (runEvents_cons_of (accept_store setPhase_self)
              (runEvents_cons_of (accept_store (by rw [setPhase_ne apart.symm]; exact (setPhase_ne apart.symm).trans setPhase_self))
                rfl))))), ?_, ?_, ?_⟩
  · simp [UpdateRun.setPhase]
  · simp only [UpdateRun.setPhase]
    rw [writeWord_same same different, readWord_apply same]
    exact unset
  · intro third held ok word loaded
    exfalso
    rcases setPhase_loaded loaded with ⟨notOther, loaded⟩ | impossible
    · rcases setPhase_loaded loaded with ⟨notWorker, loaded⟩ | impossible
      · have before : current.workers third = .loaded held ok word := by
          simpa [UpdateRun.setPhase, Function.update_of_ne notOther, Function.update_of_ne notWorker] using loaded
        rw [idle third notWorker notOther] at before
        cases before
      · cases impossible
    · cases impossible

theorem range_order {first second count : Nat} (firstBound : first < count) (secondBound : second < count)
    (different : first ≠ second) :
    (∃ front back, List.range count = front ++ first :: back ∧ second ∈ back) ∨
      ∃ front back, List.range count = front ++ second :: back ∧ first ∈ back := by
  obtain ⟨front, back, split⟩ := List.append_of_mem (List.mem_range.mpr firstBound)
  have member : second ∈ front ++ first :: back := split ▸ List.mem_range.mpr secondBound
  rcases List.mem_append.mp member with before | later
  · right
    obtain ⟨start, middle, rfl⟩ := List.append_of_mem before
    exact ⟨start, middle ++ first :: back, by rw [split]; simp, by simp⟩
  · left
    rcases List.mem_cons.mp later with equal | behind
    · exact absurd equal.symm different
    · exact ⟨front, back, split, behind⟩

/-- A successful task that shares a word with a task of another system can lose its result. -/
theorem result_can_be_lost (distinct : DistinctSlots tasks) {workerCount index task : Nat}
    (several : 1 < workerCount) (bound : index < tasks.length) (taskBound : task < tasks.length)
    (systems : systemAt tasks index ≠ systemAt tasks task)
    (same : slotAt tasks index / width = slotAt tasks task / width) :
    ∃ events final, updateWithWorkers width tasks outcome false workerCount events = some final ∧
      final.Terminated ∧ final.results (slotAt tasks index) = false := by
  have overlapping : ∃ events current worker other,
      updateWithWorkers width tasks outcome false workerCount events = some current ∧
        Overlap current worker other index task := by
    have different : index ≠ task := fun equal => systems (by rw [equal])
    rcases range_order bound taskBound different with ⟨front, back, split, member⟩ | ⟨front, back, split, member⟩
    · obtain ⟨events, current, run, overlap⟩ := reach_overlap width outcome several split member systems
      exact ⟨events, current, 0, 1, run, overlap⟩
    · obtain ⟨events, current, run, overlap⟩ := reach_overlap width outcome several split member systems.symm
      exact ⟨events, current, 1, 0, run, overlap.symm⟩
  obtain ⟨events, current, worker, other, run, overlap⟩ := overlapping
  have valid := updateWithWorkers_invariant run
  obtain ⟨more, after, collision, lost⟩ := overlap.lose distinct valid (updateWithWorkers_justified run) same
  have later : updateWithWorkers width tasks outcome false workerCount (events ++ more) = some after := by
    rw [updateWithWorkers, runEvents_append run]
    exact collision
  obtain ⟨rest, final, finishing, ended⟩ := (updateWithWorkers_invariant later).finishes width
  refine ⟨events ++ more ++ rest, final, ?_, ended, ?_⟩
  · rw [updateWithWorkers, runEvents_append later]
    exact finishing
  · exact (runEvents_memory (fun _ _ valid lost move => BitLost.move distinct valid lost move)
      (updateWithWorkers_invariant later) lost finishing).2.result

/-! ## System updates -/

/-- What `updateSystems` can return. -/
inductive UpdateReturns (width : Nat) (env : UpdateEnv) (requests : List Request) : List Bool → Prop where
  | sequential (alone : runsInParallel env requests = false) :
      UpdateReturns width env requests (sequentialResults width env requests)
  | parallel {events : List UpdateEvent} {final : UpdateRun} (several : runsInParallel env requests = true)
      (run : updateSystems width env requests events = some final) (ended : final.Terminated) :
      UpdateReturns width env requests (resultVector requests final.results)

/-- The workers return what the sequential path returns, start every task once, and
never update one system twice at the same time. -/
structure UpdatesAgree (width : Nat) (env : UpdateEnv) (requests : List Request) : Prop where
  agrees : ∀ results, UpdateReturns width env requests results → results = sequentialResults width env requests
  returns : ∀ events reached, runsInParallel env requests = true →
    updateSystems width env requests events = some reached →
      ∃ more final, updateSystems width env requests (events ++ more) = some final ∧ final.Terminated
  starts : ∀ events final, runsInParallel env requests = true →
    updateSystems width env requests events = some final → final.starts.Nodup ∧
      (final.Terminated → ∀ index < (updateTasks env requests).length, index ∈ final.starts)
  alone : ∀ events reached, runsInParallel env requests = true →
    updateSystems width env requests events = some reached → ∀ first second index other,
      reached.holds first = some index → reached.holds second = some other →
        systemAt (updateTasks env requests) index = systemAt (updateTasks env requests) other → first = second

section Systems

variable {env : UpdateEnv} {requests : List Request}

theorem updateWorkerCount_several (several : runsInParallel env requests = true) :
    1 < updateWorkerCount env requests := by
  rw [runsInParallel] at several
  rw [updateWorkerCount]
  simp only [Bool.not_eq_true', Bool.or_eq_false_iff, decide_eq_false_iff_not, not_le] at several
  exact lt_min several.1 several.2

theorem updates_always (width : Nat) (launching : env.stopOnFirstFailure = false)
    (agrees : ∀ results, UpdateReturns width env requests results → results = sequentialResults width env requests) :
    UpdatesAgree width env requests := by
  refine ⟨agrees, fun events reached several run => ?_, fun events final several run => ?_,
    fun events reached several run => ?_⟩
  · rw [updateSystems, launching] at run
    obtain ⟨more, final, rest, ended⟩ := (updateWithWorkers_invariant run).finishes width
    refine ⟨more, final, ?_, ended⟩
    rw [updateSystems, launching, updateWithWorkers, runEvents_append run]
    exact rest
  · rw [updateSystems, launching] at run
    have valid := updateWithWorkers_invariant run
    refine ⟨valid.ledger.once, fun ended index bound => (valid.terminated ?_ ended index bound).1⟩
    rw [updateWithWorkers_workerCount run]
    exact Nat.zero_lt_of_lt (updateWorkerCount_several several)
  · rw [updateSystems, launching] at run
    exact (updateWithWorkers_invariant run).holders.alone

theorem successesApart_of_agree (launching : env.stopOnFirstFailure = false)
    (several : runsInParallel env requests = true) (agree : UpdatesAgree width env requests) :
    SuccessesApart width (updateTasks env requests) (executeUpdate env) := by
  intro index bound task taskBound systems same
  by_contra success
  have distinct := updateTasks_distinct env requests
  obtain ⟨events, final, run, ended, lost⟩ := @result_can_be_lost width (updateTasks env requests)
    (executeUpdate env) distinct (updateWorkerCount env requests) index task
    (updateWorkerCount_several several) bound taskBound systems same
  have vectors := agree.agrees _ (.parallel several (by rw [updateSystems, launching]; exact run) ended)
  rw [sequentialResults, resultVector, resultVector, launching] at vectors
  have bits := List.map_inj_left.mp vectors (slotAt (updateTasks env requests) index)
    (List.mem_range.mpr (slotAt_lt bound))
  rw [lost] at bits
  exact absurd ((updateInOrder_iff distinct).mpr ⟨index, bound, rfl, by simpa using success⟩)
    (by rw [← bits]; simp)

/-- The updates agree exactly when no successful task shares a word of the results with a
task of another system, or only one worker is at work. -/
theorem updates_agree_iff (width : Nat) (env : UpdateEnv) (requests : List Request)
    (launching : env.stopOnFirstFailure = false) :
    UpdatesAgree width env requests ↔ (runsInParallel env requests = true →
      SuccessesApart width (updateTasks env requests) (executeUpdate env)) := by
  refine ⟨fun agree several => successesApart_of_agree launching several agree, fun apart => ?_⟩
  refine updates_always width launching fun results returned => ?_
  cases returned with
  | sequential alone => rfl
  | @parallel events final several run ended =>
      rw [updateSystems, launching] at run
      rw [sequentialResults, launching, results_eq_sequential (updateTasks_distinct env requests) (apart several)
        (Nat.zero_lt_of_lt (updateWorkerCount_several several)) run ended]

end Systems

/-- Two jobs, no gateway, and plugins that always succeed. -/
def obligingUpdates : UpdateEnv where
  resolveRequest request := some request
  isGatewaySystem _ := false
  getPlugin system := some system
  loadPlugin _ := true
  dispatchTaskGroupToSecurityGateway _ := true
  dispatchTaskGroupToPlugin _ := true
  resolvedExecutionJobs := 2

def updateOf (system : String) : Request := { action := .update, system := system }

/-- Updates of one system run one after the other, also with two workers. -/
theorem updates_agree_iff_same_system :
    UpdatesAgree 64 obligingUpdates [updateOf "apt", updateOf "apt"] :=
  (updates_agree_iff 64 obligingUpdates [updateOf "apt", updateOf "apt"] rfl).mpr fun _ => by
    unfold SuccessesApart
    decide +kernel

/-- The results of two systems share the first word, and one of them can be lost. -/
theorem shared_word_loses_result :
    ¬ UpdatesAgree 64 obligingUpdates [updateOf "apt", updateOf "dnf"] := by
  intro agree
  have apart := successesApart_of_agree rfl (by decide +kernel) agree
  have failed := apart 0 (by decide +kernel) 1 (by decide +kernel) (by decide +kernel) (by decide +kernel)
  exact absurd failed (by decide +kernel)

end ReqPack.Executor
