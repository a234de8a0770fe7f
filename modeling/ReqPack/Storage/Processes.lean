import Mathlib.Logic.Function.Basic
import ReqPack.Data.Machine
import ReqPack.Storage.JournalInvariant

/-! # Two processes that create a run

Two processes share one journal.  Each call of `createRun` is a read transaction
that looks for an active run, and a write transaction of its own that opens the new
one; the database serializes the transactions, in any order.
-/

namespace ReqPack.Storage

open ReqPack.Data
open ReqPack.Data.Octets

variable {α : Type} [Alphabet α]

inductive Process where
  | first
  | second
deriving Repr, DecidableEq

def Process.other : Process → Process
  | .first => .second
  | .second => .first

inductive TransactionEvent where
  | read (who : Process)
  | write (who : Process)
deriving Repr, DecidableEq

/-- What a process calls `createRun` with, and the time it reads. -/
structure Creation (α : Type) where
  clock : Int
  packages : List (StoredPackage α)
  flags : List (List α)

/-- How far a call is; a call that returned remembers the database right behind it. -/
inductive CreationPhase (α : Type) [Alphabet α] where
  | start
  | checked
  | returned (runId : List α) (behind : Database α)

structure SharedJournal (α : Type) [Alphabet α] where
  database : Database α
  phase : Process → CreationPhase α := fun _ => .start

/-- One transaction of one process; `none` when the process is not there. -/
def transactionStep (calls : Process → Creation α) (state : SharedJournal α) :
    TransactionEvent → Option (SharedJournal α)
  | .read who =>
      match state.phase who with
      | .start =>
          some { state with
            phase := Function.update state.phase who
              (if Journal.refusesRun state.database then .returned [] state.database else .checked) }
      | _ => none
  | .write who =>
      match state.phase who with
      | .checked =>
          let call := calls who
          let after := Journal.writeRun state.database call.clock call.packages call.flags
          some { database := after
                 phase := Function.update state.phase who
                   (.returned (newRunId call.clock call.packages) after) }
      | _ => none

def SharedJournal.Finished (state : SharedJournal α) : Prop :=
  ∀ who, ∃ runId behind, state.phase who = .returned runId behind

/-- At most one of the calls got a run, and a run that was created is the active one
with all its items as they were written. -/
structure SharedJournal.Exclusive (state : SharedJournal α) : Prop where
  single : ∀ runId behind otherId elsewhere, state.phase .first = .returned runId behind →
    state.phase .second = .returned otherId elsewhere → runId = [] ∨ otherId = []
  reachable : ∀ who runId behind, state.phase who = .returned runId behind → runId ≠ [] →
    state.database.get activeRunKey = some runId ∧
      ∀ key, itemPrefix runId <+: key → state.database.get key = behind.get key

/-- Both processes look before either of them writes. -/
def readsFirst : List TransactionEvent → Bool
  | .read _ :: .read _ :: _ => true
  | _ => false

section Steps

variable {calls : Process → Creation α} {state next : SharedJournal α}

theorem read_step {who : Process} (taken : transactionStep calls state (.read who) = some next) :
    state.phase who = .start ∧ next.database = state.database ∧
      next.phase = Function.update state.phase who
        (if Journal.refusesRun state.database then .returned [] state.database else .checked) := by
  cases reached : state.phase who with
  | start =>
      simp only [transactionStep, reached, Option.some.injEq] at taken
      subst taken
      exact ⟨rfl, rfl, rfl⟩
  | checked => simp [transactionStep, reached] at taken
  | returned runId behind => simp [transactionStep, reached] at taken

theorem write_step {who : Process} (taken : transactionStep calls state (.write who) = some next) :
    state.phase who = .checked ∧
      next.database = Journal.writeRun state.database (calls who).clock (calls who).packages
        (calls who).flags ∧
      next.phase = Function.update state.phase who
        (.returned (newRunId (calls who).clock (calls who).packages) next.database) := by
  cases reached : state.phase who with
  | checked =>
      simp only [transactionStep, reached, Option.some.injEq] at taken
      subst taken
      exact ⟨rfl, rfl, rfl⟩
  | start => simp [transactionStep, reached] at taken
  | returned runId behind => simp [transactionStep, reached] at taken

theorem get_activeRunKey_foldl_putItem (items : List (TransactionItemRecord α)) (runId : List α)
    (database : Database α) :
    (items.foldl (Journal.putItem runId) database).get activeRunKey = database.get activeRunKey := by
  induction items generalizing database with
  | nil => rfl
  | cons item items ih =>
      rw [List.foldl_cons, ih]
      exact get_activeRunKey_putItem runId _ item.package

theorem writeRun_active (database : Database α) (clock : Int) (packages : List (StoredPackage α))
    (flags : List (List α)) :
    (Journal.writeRun database clock packages flags).get activeRunKey = some (newRunId clock packages) := by
  simp only [Journal.writeRun, get_activeRunKey_foldl_putItem]
  rw [KeyValue.get_put, if_neg (activeRunKey_ne_runKey _), KeyValue.get_put, if_pos rfl]

/-- Once a run is active and nobody is between check and write, nothing is written any more. -/
theorem quiet_run {events : List TransactionEvent} {final : SharedJournal α}
    (refuses : Journal.refusesRun state.database = true) (unchecked : ∀ who, state.phase who ≠ .checked)
    (run : runEvents (transactionStep calls) state events = some final) :
    final.database = state.database ∧ ∀ who, final.phase who = state.phase who ∨
      (state.phase who = .start ∧ final.phase who = .returned [] state.database) := by
  induction events generalizing state with
  | nil =>
      cases run
      exact ⟨rfl, fun _ => Or.inl rfl⟩
  | cons event events ih =>
      obtain ⟨next, taken, rest⟩ := runEvents_cons run
      cases event with
      | write who => exact absurd (write_step taken).1 (unchecked who)
      | read who =>
          obtain ⟨started, database, phase⟩ := read_step taken
          rw [if_pos refuses] at phase
          have stillUnchecked : ∀ other, next.phase other ≠ .checked := by
            intro other
            rw [phase]
            by_cases same : other = who
            · simp [same]
            · simpa [same] using unchecked other
          obtain ⟨kept, phases⟩ := ih (database ▸ refuses) stillUnchecked rest
          refine ⟨kept.trans database, fun other => ?_⟩
          have later := phases other
          rw [phase, database] at later
          by_cases same : other = who
          · subst same
            rw [Function.update_self] at later
            rcases later with unchanged | ⟨impossible, _⟩
            · exact Or.inr ⟨started, unchanged⟩
            · cases impossible
          · rwa [Function.update_of_ne same] at later

/-- A process that has passed its check gets a run. -/
def PastCheck (phase : CreationPhase α) : Prop :=
  phase = .checked ∨ ∃ runId behind, phase = .returned runId behind ∧ runId ≠ []

theorem pastCheck_run {events : List TransactionEvent} {final : SharedJournal α}
    (past : ∀ who, PastCheck (state.phase who))
    (run : runEvents (transactionStep calls) state events = some final) :
    ∀ who, PastCheck (final.phase who) := by
  suffices preserved : ∀ (state : SharedJournal α) event next, (∀ who, PastCheck (state.phase who)) →
      transactionStep calls state event = some next → ∀ who, PastCheck (next.phase who) from
    runEvents_invariant preserved past run
  intro state event next past taken who
  cases event with
  | read reader =>
      have reached := past reader
      rw [(read_step taken).1] at reached
      rcases reached with impossible | ⟨_, _, impossible, _⟩
      · cases impossible
      · cases impossible
  | write writer =>
      obtain ⟨_, _, phases⟩ := write_step taken
      rw [phases]
      by_cases same : who = writer
      · subst same
        rw [Function.update_self]
        exact Or.inr ⟨_, _, rfl, (newRunId_plain _ _).1⟩
      · rw [Function.update_of_ne same]
        exact past who

end Steps

section Interleavings

variable {calls : Process → Creation α} {database : Database α} {events : List TransactionEvent}
  {final : SharedJournal α}

theorem Process.eq_or_other (who other : Process) : other = who ∨ other = who.other := by
  cases who <;> cases other <;> simp [Process.other]

theorem Process.other_ne (who : Process) : who.other ≠ who := by cases who <;> simp [Process.other]

/-- Where a run is active and nobody has got one, nobody gets one. -/
theorem exclusive_of_refused {state : SharedJournal α}
    (refuses : Journal.refusesRun state.database = true)
    (none : ∀ who, state.phase who = .start ∨ state.phase who = .returned [] state.database)
    (run : runEvents (transactionStep calls) state events = some final) : final.Exclusive := by
  have unchecked : ∀ who, state.phase who ≠ .checked := by
    intro who
    rcases none who with waits | refused
    · simp [waits]
    · simp [refused]
  obtain ⟨_, phases⟩ := quiet_run refuses unchecked run
  have refused : ∀ who runId behind, final.phase who = .returned runId behind → runId = [] := by
    intro who runId behind returned
    rcases phases who with unchanged | ⟨_, refused⟩
    · rw [unchanged] at returned
      rcases none who with waits | refused
      · rw [waits] at returned
        cases returned
      · rw [refused, CreationPhase.returned.injEq] at returned
        exact returned.1.symm
    · rw [refused, CreationPhase.returned.injEq] at returned
      exact returned.1.symm
  constructor
  · intro runId behind _ _ returned _
    exact Or.inl (refused .first runId behind returned)
  · intro who runId behind returned named
    exact absurd (refused who runId behind returned) named

/-- One process writes before the other one looks: the other is refused. -/
theorem exclusive_of_single_writer (who : Process) {runId : List α} {state : SharedJournal α}
    (wrote : state.phase who = .returned runId state.database) (waits : state.phase who.other = .start)
    (isActive : state.database.get activeRunKey = some runId) (named : runId ≠ [])
    (run : runEvents (transactionStep calls) state events = some final) : final.Exclusive := by
  have refuses : Journal.refusesRun state.database = true := by
    simp [Journal.refusesRun, isActive, named]
  have unchecked : ∀ other, state.phase other ≠ .checked := by
    intro other
    rcases who.eq_or_other other with rfl | rfl
    · simp [wrote]
    · simp [waits]
  obtain ⟨kept, phases⟩ := quiet_run refuses unchecked run
  have same : ∀ other foundId behind, final.phase other = .returned foundId behind → foundId ≠ [] →
      other = who ∧ foundId = runId ∧ behind = state.database := by
    intro other foundId behind returned found
    rcases phases other with unchanged | ⟨_, refused⟩
    · rcases who.eq_or_other other with rfl | rfl
      · rw [unchanged, wrote, CreationPhase.returned.injEq] at returned
        exact ⟨rfl, returned.1.symm, returned.2.symm⟩
      · rw [unchanged, waits] at returned
        cases returned
    · rw [refused, CreationPhase.returned.injEq] at returned
      exact absurd returned.1.symm found
  constructor
  · intro firstId behind secondId elsewhere first second
    by_contra both
    rw [not_or] at both
    have impossible := (same .first _ _ first both.1).1.trans (same .second _ _ second both.2).1.symm
    cases impossible
  · intro other foundId behind returned found
    obtain ⟨_, rfl, rfl⟩ := same other foundId behind returned found
    rw [kept]
    exact ⟨isActive, fun _ _ => rfl⟩

/-- Both processes passed their check: both get a run. -/
theorem not_exclusive_of_pastCheck {state : SharedJournal α} (past : ∀ who, PastCheck (state.phase who))
    (finished : state.Finished) : ¬ state.Exclusive := by
  have created : ∀ who, ∃ runId behind, state.phase who = .returned runId behind ∧ runId ≠ [] := by
    intro who
    rcases past who with checked | found
    · obtain ⟨_, _, returned⟩ := finished who
      rw [checked] at returned
      cases returned
    · exact found
  obtain ⟨firstId, behind, first, firstNamed⟩ := created .first
  obtain ⟨secondId, elsewhere, second, secondNamed⟩ := created .second
  intro exclusive
  rcases exclusive.single _ _ _ _ first second with empty | empty
  · exact firstNamed empty
  · exact secondNamed empty

/-- The runs that go on after one process has looked and found no active run. -/
theorem exclusive_iff_of_checked (who : Process) {state : SharedJournal α}
    (checked : state.phase who = .checked) (waits : state.phase who.other = .start)
    (accepts : Journal.refusesRun state.database = false)
    (run : runEvents (transactionStep calls) state events = some final) (finished : final.Finished) :
    final.Exclusive ↔ readsFirst (.read who :: events) = false := by
  cases events with
  | nil =>
      cases run
      obtain ⟨_, _, returned⟩ := finished who
      rw [checked] at returned
      cases returned
  | cons event events =>
      obtain ⟨next, taken, rest⟩ := runEvents_cons run
      cases event with
      | read reader =>
          -- the second check still finds no run
          obtain ⟨started, _, phase⟩ := read_step taken
          rw [if_neg (by simp [accepts])] at phase
          have other : reader = who.other := by
            rcases who.eq_or_other reader with rfl | same
            · rw [checked] at started
              cases started
            · exact same
          have both : ∀ process, PastCheck (next.phase process) := by
            intro process
            rw [phase, other]
            rcases who.eq_or_other process with rfl | rfl
            · rw [Function.update_of_ne process.other_ne.symm]
              exact Or.inl checked
            · rw [Function.update_self]
              exact Or.inl rfl
          exact iff_of_false (not_exclusive_of_pastCheck (pastCheck_run both rest) finished)
            (by simp [readsFirst])
      | write writer =>
          obtain ⟨ready, written, phase⟩ := write_step taken
          have same : writer = who := by
            rcases who.eq_or_other writer with same | rfl
            · exact same
            · rw [waits] at ready
              cases ready
          subst same
          have wrote : next.phase writer =
              .returned (newRunId (calls writer).clock (calls writer).packages) next.database := by
            rw [phase, Function.update_self]
          have stillWaits : next.phase writer.other = .start := by
            rw [phase, Function.update_of_ne writer.other_ne, waits]
          refine iff_of_true ?_ rfl
          exact exclusive_of_single_writer writer wrote stillWaits (by rw [written, writeRun_active])
            (newRunId_plain _ _).1 rest

/-- Two calls of `createRun` exclude each other unless no run is active and both
processes look before either of them writes. -/
theorem createRuns_exclusive_iff
    (run : runEvents (transactionStep calls) { database := database } events = some final)
    (finished : final.Finished) :
    final.Exclusive ↔ Journal.refusesRun database = true ∨ readsFirst events = false := by
  cases events with
  | nil =>
      cases run
      obtain ⟨_, _, impossible⟩ := finished .first
      cases impossible
  | cons event events =>
      obtain ⟨next, taken, rest⟩ := runEvents_cons run
      cases event with
      | write who =>
          obtain ⟨impossible, _⟩ := write_step taken
          cases impossible
      | read who =>
          obtain ⟨_, looked, phase⟩ := read_step taken
          have waits : next.phase who.other = .start := by
            rw [phase, Function.update_of_ne who.other_ne]
          cases refuses : Journal.refusesRun database with
          | true =>
              rw [if_pos refuses] at phase
              refine iff_of_true (exclusive_of_refused (looked ▸ refuses) (fun other => ?_) rest) (Or.inl rfl)
              rcases who.eq_or_other other with rfl | rfl
              · exact Or.inr (by rw [phase, looked, Function.update_self])
              · exact Or.inl waits
          | false =>
              rw [if_neg (by simp [refuses])] at phase
              have checked : next.phase who = .checked := by rw [phase, Function.update_self]
              rw [exclusive_iff_of_checked who checked waits (looked ▸ refuses) rest finished]
              simp

def openGcc : Creation UInt8 := { clock := 7, packages := [gccInstall], flags := [] }

/-- The second process looks when the first one has written. -/
theorem createRuns_exclusive_iff_in_turn :
    ∃ final, runEvents (transactionStep fun _ => openGcc) { database := {} }
        [.read .first, .write .first, .read .second] = some final ∧ final.Finished ∧ final.Exclusive := by
  have reached : ∃ final, runEvents (transactionStep fun _ => openGcc) { database := {} }
      [.read .first, .write .first, .read .second] = some final ∧ final.Finished := by
    refine ⟨_, rfl, fun who => ?_⟩
    cases who with
    | first => exact ⟨_, _, rfl⟩
    | second => exact ⟨_, _, rfl⟩
  obtain ⟨final, run, finished⟩ := reached
  exact ⟨final, run, finished, (createRuns_exclusive_iff run finished).mpr (Or.inr rfl)⟩

/-- Both processes find no active run, and both open one under the same id. -/
theorem both_create_run :
    ∃ final, runEvents (transactionStep fun _ => openGcc) { database := {} }
        [.read .first, .read .second, .write .first, .write .second] = some final ∧
      final.Finished ∧ ¬ final.Exclusive := by
  refine ⟨_, rfl, ?_, fun exclusive => ?_⟩
  · intro who
    cases who with
    | first => exact ⟨_, _, rfl⟩
    | second => exact ⟨_, _, rfl⟩
  · rcases exclusive.single _ _ _ _ rfl rfl with empty | empty
    · exact (newRunId_plain _ _).1 empty
    · exact (newRunId_plain _ _).1 empty

end Interleavings

end ReqPack.Storage
