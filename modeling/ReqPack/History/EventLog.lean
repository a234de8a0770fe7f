import Mathlib.Algebra.Order.Floor.Semiring
import Mathlib.Data.Rat.Floor
import Mathlib.Tactic.NormNum
import Mathlib.Tactic.Positivity
import ReqPack.Data.Bytes
import ReqPack.Data.Newest
import ReqPack.Data.Text

/-! # The history log

`history.jsonl` holds one line for each event.  After every event the log is cut down to
its newest lines, when it has become too long or too large.
-/

namespace ReqPack.History

open ReqPack.Data ReqPack.Data.Ascii

structure HistoryEntry where
  timestamp : Bytes
  action : Bytes
  system : Bytes
  packageName : Bytes
  packageVersion : Bytes
  status : Bytes
  errorMessage : Bytes
deriving DecidableEq, Repr

/-- What `config.history` says about the log; the megabytes are taken exactly. -/
structure HistoryConfig where
  enabled : Bool
  maxLines : Nat
  maxSizeMb : ℚ
deriving DecidableEq

def escapeJson (s : Bytes) : Bytes :=
  s.flatMap fun c =>
    if c = doubleQuote then [backslash, doubleQuote]
    else if c = backslash then [backslash, backslash]
    else if c = newline then backslash :: bytes "n"
    else if c = carriageReturn then backslash :: bytes "r"
    else if c = 9 then backslash :: bytes "t"
    else [c]

def jstr (key value : Bytes) : Bytes :=
  doubleQuote :: escapeJson key ++ bytes "\":\"" ++ escapeJson value ++ [doubleQuote]

def entryToJsonLine (e : HistoryEntry) : Bytes :=
  bytes "\x7b" ++ jstr (bytes "timestamp") e.timestamp ++ bytes "," ++
    jstr (bytes "action") e.action ++ bytes "," ++
    jstr (bytes "manager") e.system ++ bytes "," ++
    jstr (bytes "package") e.packageName ++ bytes "," ++
    jstr (bytes "version") e.packageVersion ++ bytes "," ++
    jstr (bytes "status") e.status ++
    (if e.errorMessage.isEmpty then [] else bytes "," ++ jstr (bytes "error") e.errorMessage) ++
    bytes "\x7d"

def readAllLines (log : Bytes) : List Bytes := (pieces newline log).filter fun line => !line.isEmpty

def writeAllLines (lines : List Bytes) : Bytes := lines.flatMap fun line => line ++ [newline]

/-- The loop over the lines from the last one on; `sizeKeep` lines of `total` bytes are
kept so far. -/
def sizeKeepFrom (maxBytes total sizeKeep : Nat) : List Bytes → Nat
  | [] => sizeKeep
  | line :: older =>
      if total + (line.length + 1) ≤ maxBytes then
        sizeKeepFrom maxBytes (total + (line.length + 1)) (sizeKeep + 1) older
      else sizeKeep

namespace HistoryConfig

variable (config : HistoryConfig)

def maxBytes : Nat := ⌊config.maxSizeMb * 1024 * 1024⌋₊

def keepCount (lines : List Bytes) : Nat :=
  let keepCount := if 0 < config.maxLines ∧ config.maxLines < lines.length then config.maxLines else lines.length
  if 0 < config.maxSizeMb then
    let sizeKeep := sizeKeepFrom config.maxBytes 0 0 lines.reverse
    if sizeKeep < keepCount then sizeKeep else keepCount
  else keepCount

/-- The content of the log after a trim; a log that is not there has no content. -/
def trimHistoryLog (log : Bytes) : Bytes :=
  if config.maxLines = 0 ∧ config.maxSizeMb ≤ 0 then log
  else
    let large : Bool := 0 < config.maxSizeMb && config.maxSizeMb < (log.length : ℚ) / (1024 * 1024)
    let long : Bool := 0 < config.maxLines && !large && config.maxLines < (readAllLines log).length
    if !large && !long then log
    else
      let lines := readAllLines log
      if lines.isEmpty then log
      else if lines.length ≤ config.keepCount lines then log
      else writeAllLines (lines.drop (lines.length - config.keepCount lines))

/-- The content of the log after `appendEvent`, every write succeeding. -/
def appendEvent (log : Bytes) (entry : HistoryEntry) : Bytes :=
  if config.enabled then config.trimHistoryLog (log ++ (entryToJsonLine entry ++ [newline])) else log

/-- The log after events that are appended to an empty one. -/
def logAfter (events : List HistoryEntry) : Bytes := events.foldl config.appendEvent []

/-- Both limits hold; zero stands for no limit. -/
def withinLimits (lines : List Bytes) : Bool :=
  (config.maxLines == 0 || lines.length ≤ config.maxLines) &&
    (config.maxSizeMb ≤ 0 || ((writeAllLines lines).length : ℚ) ≤ config.maxSizeMb * 1024 * 1024)

end HistoryConfig

section Lines

/-- Lines that a reader of the log finds again. -/
def Readable (lines : List Bytes) : Prop := ∀ line ∈ lines, newline ∉ line ∧ line ≠ []

theorem newline_not_mem_escapeJson (s : Bytes) : newline ∉ escapeJson s := by
  intro member
  obtain ⟨c, _, produced⟩ := List.mem_flatMap.mp member
  split at produced
  · exact absurd produced (by decide)
  split at produced
  · exact absurd produced (by decide)
  split at produced
  · exact absurd produced (by decide)
  split at produced
  · exact absurd produced (by decide)
  split at produced
  · exact absurd produced (by decide)
  · rename_i other _ _
    exact other (List.mem_singleton.mp produced).symm

theorem newline_not_mem_jstr (key value : Bytes) : newline ∉ jstr key value := by
  have quote : newline ≠ doubleQuote := by decide
  have between : newline ∉ bytes "\":\"" := by decide
  simp [jstr, quote, between, newline_not_mem_escapeJson]

theorem newline_not_mem_entryToJsonLine (e : HistoryEntry) : newline ∉ entryToJsonLine e := by
  have opening : newline ∉ bytes "\x7b" := by decide
  have closing : newline ∉ bytes "\x7d" := by decide
  have comma : newline ∉ bytes "," := by decide
  unfold entryToJsonLine
  split <;> simp [opening, closing, comma, newline_not_mem_jstr]

theorem entryToJsonLine_ne_nil (e : HistoryEntry) : entryToJsonLine e ≠ [] := by
  intro empty
  have closing : bytes "\x7d" = [] := by
    unfold entryToJsonLine at empty
    exact (List.append_eq_nil_iff.mp empty).2
  exact absurd closing (by decide)

theorem readable_entries (events : List HistoryEntry) : Readable (events.map entryToJsonLine) := by
  intro line member
  obtain ⟨e, _, rfl⟩ := List.mem_map.mp member
  exact ⟨newline_not_mem_entryToJsonLine e, entryToJsonLine_ne_nil e⟩

theorem Readable.suffix {kept lines : List Bytes} (readable : Readable lines) (suffix : kept <:+ lines) :
    Readable kept := fun line member => readable line (suffix.subset member)

theorem pieces_writeAllLines {lines : List Bytes} (readable : Readable lines) :
    pieces newline (writeAllLines lines) = lines :=
  pieces_terminated fun line member => (readable line member).1

theorem readAllLines_writeAllLines {lines : List Bytes} (readable : Readable lines) :
    readAllLines (writeAllLines lines) = lines := by
  unfold readAllLines
  rw [pieces_writeAllLines readable, List.filter_eq_self]
  intro line member
  simpa using (readable line member).2

@[simp] theorem writeAllLines_append (older newer : List Bytes) :
    writeAllLines (older ++ newer) = writeAllLines older ++ writeAllLines newer := List.flatMap_append

end Lines

section Trimming

variable {config : HistoryConfig} {lines kept : List Bytes}

theorem sizeKeep_le_sizeKeepFrom (maxBytes total sizeKeep : Nat) (recent : List Bytes) :
    sizeKeep ≤ sizeKeepFrom maxBytes total sizeKeep recent := by
  induction recent generalizing total sizeKeep with
  | nil => exact Nat.le_refl sizeKeep
  | cons line older ih =>
      rw [sizeKeepFrom]
      split
      · have next := ih (total + (line.length + 1)) (sizeKeep + 1)
        omega
      · exact Nat.le_refl sizeKeep

/-- The loop keeps the longest run of the last lines that fits into the bytes left. -/
theorem sizeKeepFrom_spec {maxBytes total : Nat} (enough : total ≤ maxBytes) (sizeKeep : Nat)
    (front back : List Bytes) :
    total + (writeAllLines front).length ≤ maxBytes ↔
      sizeKeep + front.length ≤ sizeKeepFrom maxBytes total sizeKeep (front ++ back) := by
  induction front generalizing total sizeKeep with
  | nil => simpa [writeAllLines, enough] using sizeKeep_le_sizeKeepFrom maxBytes total sizeKeep back
  | cons line front ih =>
      have size : (writeAllLines (line :: front)).length = line.length + 1 + (writeAllLines front).length := by
        simp only [writeAllLines, List.flatMap_cons, List.length_append, List.length_singleton]
      rw [List.cons_append, sizeKeepFrom, size, List.length_cons]
      split
      · rename_i room
        have next := ih room (sizeKeep + 1)
        omega
      · omega

theorem length_writeAllLines_reverse (lines : List Bytes) :
    (writeAllLines lines.reverse).length = (writeAllLines lines).length := by
  induction lines with
  | nil => rfl
  | cons line lines ih => simp [writeAllLines] at ih ⊢; omega

theorem le_maxBytes_iff (limited : 0 < config.maxSizeMb) (count : Nat) :
    count ≤ config.maxBytes ↔ (count : ℚ) ≤ config.maxSizeMb * 1024 * 1024 :=
  Nat.le_floor_iff (by positivity)

theorem keepCount_le (config : HistoryConfig) (lines : List Bytes) : config.keepCount lines ≤ lines.length := by
  unfold HistoryConfig.keepCount
  dsimp only
  split <;> split <;> (try split) <;> omega

/-- The keep count is the length of the longest end of the lines within the limits. -/
theorem withinLimits_iff_length_le (suffix : kept <:+ lines) :
    config.withinLimits kept = true ↔ kept.length ≤ config.keepCount lines := by
  obtain ⟨dropped, rfl⟩ := suffix
  have sized := sizeKeepFrom_spec (Nat.zero_le config.maxBytes) 0 kept.reverse dropped.reverse
  rw [← List.reverse_append, List.length_reverse, length_writeAllLines_reverse] at sized
  have total : (dropped ++ kept).length = dropped.length + kept.length := List.length_append
  unfold HistoryConfig.withinLimits HistoryConfig.keepCount
  by_cases limited : 0 < config.maxSizeMb
  · have bytesLeft := le_maxBytes_iff limited (writeAllLines kept).length
    have notFree : ¬ config.maxSizeMb ≤ 0 := not_le.mpr limited
    simp only [if_pos limited, notFree, Bool.and_eq_true, Bool.or_eq_true, beq_iff_eq, decide_eq_true_eq, false_or,
      ← bytesLeft]
    split <;> split <;> omega
  · have free : config.maxSizeMb ≤ 0 := not_lt.mp limited
    simp only [if_neg limited, free, Bool.and_eq_true, Bool.or_eq_true, beq_iff_eq, decide_eq_true_eq, true_or,
      and_true]
    split <;> omega

theorem newest_eq_drop_keepCount (config : HistoryConfig) (lines : List Bytes) :
    newest config.withinLimits lines = lines.drop (lines.length - config.keepCount lines) :=
  newest_eq_drop (keepCount_le config lines) fun _ suffix => withinLimits_iff_length_le suffix

/-- What neither check of the trim rejects is within the limits. -/
theorem withinLimits_of_checks
    (small : ¬ (0 < config.maxSizeMb ∧ config.maxSizeMb < ((writeAllLines lines).length : ℚ) / (1024 * 1024)))
    (short : ¬ (0 < config.maxLines ∧ config.maxLines < lines.length)) :
    config.withinLimits lines = true := by
  have sized : config.maxSizeMb ≤ 0 ∨ ((writeAllLines lines).length : ℚ) ≤ config.maxSizeMb * 1024 * 1024 := by
    rcases le_or_gt config.maxSizeMb 0 with free | limited
    · exact Or.inl free
    · have bound := not_lt.mp fun larger => small ⟨limited, larger⟩
      rw [div_le_iff₀ (by norm_num)] at bound
      exact Or.inr (by linarith)
  have counted : config.maxLines = 0 ∨ lines.length ≤ config.maxLines := by omega
  simpa [HistoryConfig.withinLimits] using ⟨counted, sized⟩

/-- A trim keeps the longest end of the lines within the limits. -/
theorem trimHistoryLog_writeAllLines (config : HistoryConfig) (readable : Readable lines) :
    config.trimHistoryLog (writeAllLines lines) = writeAllLines (newest config.withinLimits lines) := by
  have untouched : config.withinLimits lines = true →
      writeAllLines lines = writeAllLines (newest config.withinLimits lines) := fun fit => by
    rw [newest_of_fits fit]
  unfold HistoryConfig.trimHistoryLog
  dsimp only
  rw [readAllLines_writeAllLines readable]
  split
  · rename_i unlimited
    exact untouched (by simp [HistoryConfig.withinLimits, unlimited])
  split
  · rename_i limited whole
    apply untouched
    rw [Bool.and_eq_true, Bool.not_eq_true', Bool.not_eq_true'] at whole
    obtain ⟨small, short⟩ := whole
    rw [small] at short
    exact withinLimits_of_checks (by simpa using small) (by simpa using short)
  split
  · rename_i nothing
    rw [List.isEmpty_iff.mp nothing, newest]
  split
  · rename_i enough
    rw [newest_eq_drop_keepCount, Nat.sub_eq_zero_of_le enough, List.drop_zero]
  · rw [newest_eq_drop_keepCount]

end Trimming

section Runs

theorem withinLimits_earlier (config : HistoryConfig) (older : List Bytes) (line : Bytes)
    (fit : config.withinLimits (older ++ [line]) = true) : config.withinLimits older = true := by
  simp only [HistoryConfig.withinLimits, Bool.and_eq_true, Bool.or_eq_true, beq_iff_eq, decide_eq_true_eq,
    writeAllLines_append, List.length_append, List.length_singleton, Nat.cast_add] at fit ⊢
  refine ⟨by omega, fit.2.imp id fun fits => ?_⟩
  have behind : (0 : ℚ) ≤ (writeAllLines [line]).length := Nat.cast_nonneg _
  linarith

theorem withinLimits_nil (config : HistoryConfig) : config.withinLimits [] = true := by
  have bound : config.maxSizeMb ≤ 0 ∨ 0 ≤ config.maxSizeMb * 1024 * 1024 := by
    rcases le_total config.maxSizeMb 0 with free | limited
    · exact Or.inl free
    · exact Or.inr (by positivity)
  simpa [HistoryConfig.withinLimits, writeAllLines] using bound

/-- Appending to a log that was trimmed after every event is trimming the whole history. -/
theorem logAfter_eq (config : HistoryConfig) (enabled : config.enabled = true) (events : List HistoryEntry) :
    config.logAfter events = writeAllLines (newest config.withinLimits (events.map entryToJsonLine)) := by
  induction events using List.reverseRecOn with
  | nil => rfl
  | append_singleton events entry ih =>
      have early := newest_suffix config.withinLimits (events.map entryToJsonLine)
      have readable : Readable (newest config.withinLimits (events.map entryToJsonLine) ++ [entryToJsonLine entry]) := by
        intro line member
        rcases List.mem_append.mp member with kept | last
        · exact readable_entries events line (early.subset kept)
        · exact readable_entries [entry] line last
      have appended : config.logAfter (events ++ [entry]) = config.appendEvent (config.logAfter events) entry := by
        simp [HistoryConfig.logAfter]
      have written : writeAllLines [entryToJsonLine entry] = entryToJsonLine entry ++ [newline] := by
        simp [writeAllLines]
      rw [appended, HistoryConfig.appendEvent, if_pos enabled, ih, ← written, ← writeAllLines_append,
        trimHistoryLog_writeAllLines config readable,
        newest_concat (withinLimits_nil config) (withinLimits_earlier config), List.map_append, List.map_singleton]

theorem logAfter_disabled (config : HistoryConfig) (disabled : config.enabled = false)
    (events : List HistoryEntry) : config.logAfter events = [] := by
  unfold HistoryConfig.logAfter
  induction events with
  | nil => rfl
  | cons entry events ih => simpa [HistoryConfig.appendEvent, disabled] using ih

/-- The events that reach the log. -/
def HistoryConfig.appended (config : HistoryConfig) (events : List HistoryEntry) : List HistoryEntry :=
  if config.enabled then events else []

end Runs

end ReqPack.History
