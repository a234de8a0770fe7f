import Mathlib.Data.List.TakeWhile
import ReqPack.Storage.JournalInvariant

/-! # Records of the journal are read back

Numbers are printed and read again, a line of an item sets the field it names, and a
run comes back with its flags as long as no flag is cut at a semicolon.
-/

namespace ReqPack.Storage

open ReqPack.Data
open ReqPack.Data.Octets

variable {α : Type} [Alphabet α]

section Numbers

theorem digitValue_symbol {digit : Nat} (small : digit < 10) :
    digitValue (Alphabet.symbol digit.digitChar : α) = some digit := by
  have ascii : ∀ digit < 10, digit.digitChar.toNat < 128 := by decide
  have apart : ∀ left < 10, ∀ right < 10, left ≠ right → left.digitChar ≠ right.digitChar := by decide
  rw [digitValue, List.find?_range_eq_some]
  refine ⟨by simp, List.mem_range.mpr small, fun other lower => ?_⟩
  have differs := symbol_ne (α := α) (ascii digit small) (ascii other (by omega))
    (apart digit small other (by omega) (by omega))
  simpa using differs

/-- The printed digits are read as digits whose number is the one printed. -/
theorem map_digitValue_toDigits (number : Nat) :
    ∃ digits : List Nat, digits ≠ [] ∧
      ((Nat.toDigits 10 number).map Alphabet.symbol : List α).map digitValue = digits.map some ∧
      digits.foldl (fun value digit => 10 * value + digit) 0 = number := by
  induction number using Nat.strongRecOn with
  | ind number ih =>
      rw [Nat.toDigits_eq_if (by decide)]
      split
      · rename_i small
        exact ⟨[number], by simp, by simp [digitValue_symbol small], by simp⟩
      · rename_i large
        obtain ⟨digits, _, read, value⟩ := ih (number / 10) (Nat.div_lt_self (by omega) (by decide))
        have last : number % 10 < 10 := Nat.mod_lt _ (by decide)
        refine ⟨digits ++ [number % 10], by simp, by simp [read, digitValue_symbol last], ?_⟩
        rw [List.foldl_append, value]
        simp only [List.foldl_cons, List.foldl_nil]
        omega

theorem leadingNumber_of_digits {value : List α} {digits : List Nat} (present : digits ≠ [])
    (read : value.map digitValue = digits.map some) :
    leadingNumber value = some (digits.foldl (fun number digit => 10 * number + digit) 0) := by
  have kept : (digits.map some).takeWhile (fun digit : Option Nat => digit.isSome) = digits.map some := by
    rw [List.takeWhile_eq_self_iff]
    simp
  rw [leadingNumber, read]
  cases digits with
  | nil => exact absurd rfl present
  | cons first rest =>
      rw [List.map_cons, ← List.map_cons, kept]
      simp [List.foldl_map]

theorem leadingNumber_toString (number : Nat) :
    leadingNumber (text (toString number) : List α) = some number := by
  obtain ⟨digits, present, read, value⟩ := map_digitValue_toDigits (α := α) number
  rw [text, Nat.toString_eq_ofList_toDigits, String.toList_ofList, leadingNumber_of_digits present read, value]

/-- A letter that is a digit is neither a blank nor a sign. -/
theorem digit_is_no_sign {letter : α} {digit : Nat} (read : digitValue letter = some digit) :
    isSpace letter = false ∧ letter ≠ Alphabet.symbol '-' ∧ letter ≠ Alphabet.symbol '+' := by
  have found := List.find?_some read
  have small : digit < 10 := List.mem_range.mp (List.mem_of_find?_eq_some read)
  have same : letter = Alphabet.symbol digit.digitChar := of_decide_eq_true found
  have ascii : ∀ digit < 10, digit.digitChar.toNat < 128 := by decide
  have differs : ∀ {character : Char}, character.toNat < 128 → (∀ digit < 10, digit.digitChar ≠ character) →
      letter ≠ Alphabet.symbol character := fun {character} bound apart =>
    same ▸ symbol_ne (ascii digit small) bound (apart digit small)
  refine ⟨?_, differs (by decide) (by decide), differs (by decide) (by decide)⟩
  rw [isSpace, List.any_eq_false]
  intro space member
  rw [decide_eq_true_eq]
  simp only [List.mem_cons, List.not_mem_nil, or_false] at member
  rcases member with rfl | rfl | rfl | rfl | rfl | rfl
  all_goals exact differs (by decide) (by decide)

theorem signedNumber_digits {value : List α} {digits : List Nat} (present : digits ≠ [])
    (read : value.map digitValue = digits.map some) :
    signedNumber value = (leadingNumber value).map fun number => (false, number) := by
  cases value with
  | nil =>
      cases digits with
      | nil => exact absurd rfl present
      | cons first rest => simp at read
  | cons letter rest =>
      cases digits with
      | nil => exact absurd rfl present
      | cons first others =>
          simp only [List.map_cons, List.cons.injEq] at read
          obtain ⟨noSpace, noMinus, noPlus⟩ := digit_is_no_sign read.1
          have start : (letter :: rest).dropWhile isSpace = letter :: rest :=
            List.dropWhile_cons_of_neg (by simp [noSpace])
          rw [signedNumber, start]
          simp only [if_neg noMinus, if_neg noPlus]

theorem signedNumber_nat (number : Nat) :
    signedNumber (text (toString number) : List α) = some (false, number) := by
  obtain ⟨digits, present, read, _⟩ := map_digitValue_toDigits (α := α) number
  have printed : (text (toString number) : List α).map digitValue = digits.map some := by
    rw [text, Nat.toString_eq_ofList_toDigits, String.toList_ofList, read]
  rw [signedNumber_digits present printed, leadingNumber_toString, Option.map_some]

theorem signedNumber_negSucc (number : Nat) :
    signedNumber (text (toString (Int.negSucc number)) : List α) = some (true, number + 1) := by
  have noSpace : isSpace (Alphabet.symbol '-' : α) = false := by
    rw [isSpace, List.any_eq_false]
    intro space member
    rw [decide_eq_true_eq]
    simp only [List.mem_cons, List.not_mem_nil, or_false] at member
    rcases member with rfl | rfl | rfl | rfl | rfl | rfl
    all_goals exact symbol_ne (by decide) (by decide) (by decide)
  have digits : (toString (number + 1)).toList.map Alphabet.symbol = (text (toString (number + 1)) : List α) := rfl
  have start : (Alphabet.symbol '-' :: (text (toString (number + 1)) : List α)).dropWhile isSpace =
      Alphabet.symbol '-' :: text (toString (number + 1)) :=
    List.dropWhile_cons_of_neg (by simp [noSpace])
  rw [text, toString_negSucc, List.map_cons, digits, signedNumber, start]
  simp only [reduceIte, leadingNumber_toString, Option.map_some]

theorem stoull_toString {number : Nat} (bound : number < 2 ^ 64) :
    stoull (text (toString number) : List α) = some number := by
  rw [stoull, signedNumber_nat]
  simp only [if_pos bound, Bool.false_eq_true, reduceIte]

theorem stoi_toString {number : Int} (low : -(2 ^ 31) ≤ number) (high : number < 2 ^ 31) :
    stoi (text (toString number) : List α) = some number := by
  cases number with
  | ofNat number =>
      have printed : (text (toString (Int.ofNat number)) : List α) = text (toString number) := rfl
      rw [stoi, printed, signedNumber_nat]
      simp only [Bool.false_eq_true, reduceIte]
      rw [if_pos ⟨low, high⟩]
      rfl
  | negSucc number =>
      have negative : (-((number + 1 : Nat) : Int)) = Int.negSucc number := rfl
      rw [stoi, signedNumber_negSucc]
      simp only [reduceIte, negative]
      rw [if_pos ⟨low, high⟩]

end Numbers

section Items

/-- The number of the action is an `int`. -/
def StoredPackage.Typed (package : StoredPackage α) : Prop :=
  -(2 ^ 31) ≤ package.action ∧ package.action < 2 ^ 31

/-- Reading a written line of an item stores its value under the field it names. -/
theorem readItemLine_fieldLine {field : String} (ascii : isAscii field = true) (plain : '=' ∉ field.toList)
    (draft : ItemDraft α) (value : List α) :
    readItemLine draft (fieldLine field value) =
      if field = "sequence" then (stoull value).map fun sequence => { draft with sequence := some sequence }
      else if field = "action" then (stoi value).map fun action => { draft with action := some action }
      else if field = "system" then some { draft with system := some value }
      else if field = "name" then some { draft with name := some value }
      else if field = "version" then some { draft with version := some value }
      else if field = "sourcePath" then some { draft with sourcePath := some value }
      else if field = "localTarget" then
        if value = text "1" then some { draft with localTarget := some true }
        else if value = text "0" then some { draft with localTarget := some false }
        else none
      else if field = "status" then some { draft with status := some value }
      else if field = "error" then some { draft with errorMessage := some value }
      else some draft := by
  have known : ∀ {literal : String}, isAscii literal = true →
      ((text field : List α) = text literal ↔ field = literal) := fun literal => text_eq_text ascii literal
  rw [readItemLine, cutAt_fieldLine ascii plain]
  simp (disch := decide) only [unescape_escape, known]

def itemLines (item : TransactionItemRecord α) : List (List α) :=
  [fieldLine "sequence" (text (toString item.sequence)),
    fieldLine "action" (text (toString item.package.action)),
    fieldLine "system" item.package.system, fieldLine "name" item.package.name,
    fieldLine "version" item.package.version, fieldLine "sourcePath" item.package.sourcePath,
    fieldLine "localTarget" (text (if item.package.localTarget then "1" else "0")),
    fieldLine "status" item.status, fieldLine "error" item.errorMessage]

theorem pieces_serializeItem (item : TransactionItemRecord α) :
    pieces newlineSymbol (serializeItem item) = itemLines item := by
  apply pieces_terminated
  intro line member
  have shape : ∃ field value, line = fieldLine field value ∧ isAscii field = true ∧ '\n' ∉ field.toList := by
    simp only [List.mem_cons, List.not_mem_nil, or_false] at member
    rcases member with rfl | rfl | rfl | rfl | rfl | rfl | rfl | rfl | rfl
    all_goals exact ⟨_, _, rfl, by decide, by decide⟩
  obtain ⟨field, value, rfl, ascii, oneLine⟩ := shape
  exact newline_not_mem_fieldLine ascii oneLine value

/-- Every field comes back as it was written, whatever bytes it holds. -/
theorem foldlM_readItemLine {item : TransactionItemRecord α} (sequence : item.sequence < 2 ^ 64)
    (typed : item.package.Typed) :
    (itemLines item).foldlM readItemLine {} =
      some { sequence := some item.sequence, action := some item.package.action,
             system := some item.package.system, name := some item.package.name,
             version := some item.package.version, sourcePath := some item.package.sourcePath,
             localTarget := some item.package.localTarget, status := some item.status,
             errorMessage := some item.errorMessage } := by
  cases target : item.package.localTarget with
  | true =>
      simp (disch := decide) only [itemLines, target, List.foldlM_cons, List.foldlM_nil, readItemLine_fieldLine,
        String.reduceEq, reduceIte, stoull_toString sequence, stoi_toString typed.1 typed.2,
        Option.map_some, Option.bind_eq_bind, Option.bind_some, Option.pure_def]
  | false =>
      simp (disch := decide) only [itemLines, target, List.foldlM_cons, List.foldlM_nil, readItemLine_fieldLine,
        String.reduceEq, reduceIte, Bool.false_eq_true, text_eq_text, stoull_toString sequence,
        stoi_toString typed.1 typed.2, Option.map_some, Option.bind_eq_bind, Option.bind_some, Option.pure_def]

/-- An item is read back under its key, with the ids the key holds. -/
theorem deserialize_serializeItem {item : TransactionItemRecord α} (sequence : item.sequence < 2 ^ 64)
    (typed : item.package.Typed) {key runId itemId : List α} (parsed : parseItemKey key = some (runId, itemId)) :
    deserializeItem key (serializeItem item) =
      if item.status.isEmpty then none else some { item with runId := runId, itemId := itemId } := by
  simp only [deserializeItem, parsed, pieces_serializeItem, foldlM_readItemLine sequence typed,
    Option.bind_eq_bind, Option.bind_some]

/-- A key without a run id cannot be read. -/
theorem parseItemKey_unnamed (package : StoredPackage α) : parseItemKey (itemKey [] package) = none := by
  have starts : (text "item:").isPrefixOf (itemKey ([] : List α) package) = true :=
    @isItemKey_of_itemPrefix _ _ [] _ (List.prefix_append _ _)
  have behind : (itemKey ([] : List α) package).drop 5 = [] ++ colon :: itemIdForPackage package := by
    simp [itemKey, itemPrefix, text]
  rw [parseItemKey, if_pos starts, behind, cutAt_append (by simp)]
  simp

end Items

section Flags

theorem escape_append (front back : List α) : escape (front ++ back) = escape front ++ escape back := by
  simp [escape]

/-- Semicolons are not escaped, so the flags are escaped as one text. -/
theorem escape_intercalate (flags : List (List α)) :
    [semicolon].intercalate (flags.map escape) = escape ([semicolon].intercalate flags) := by
  have separator : escape [semicolon] = ([semicolon] : List α) := by
    have noSlash : (semicolon : α) ≠ backslashSymbol := symbol_ne (by decide) (by decide) (by decide)
    have noBreak : (semicolon : α) ≠ newlineSymbol := symbol_ne (by decide) (by decide) (by decide)
    simp [escape, noSlash, noBreak]
  induction flags with
  | nil => rfl
  | cons flag flags ih =>
      cases flags with
      | nil => simp
      | cons next others =>
          rw [List.map_cons, List.map_cons, List.intercalate_cons_cons, List.intercalate_cons_cons,
            ← List.map_cons, ih, escape_append, escape_append, separator]

theorem separator_not_mem_piece {separator : α} {value piece : List α} (listed : piece ∈ pieces separator value) :
    separator ∉ piece := by
  fun_induction pieces separator value generalizing piece with
  | case1 => simp at listed
  | case2 rest ih =>
      rcases List.mem_cons.mp listed with rfl | later
      · simp
      · exact ih later
  | case3 letter rest other ended ih =>
      rw [List.mem_singleton.mp listed, List.mem_singleton]
      exact fun same => other same.symm
  | case4 letter rest other first others started ih =>
      rcases List.mem_cons.mp listed with rfl | later
      · rw [List.mem_cons, not_or]
        exact ⟨fun same => other same.symm, ih (by simp [started])⟩
      · exact ih (by simp [started, later])

/-- Which lists of flags come back. -/
def Flags.Storable (flags : List (List α)) : Prop := ∀ flag ∈ flags, semicolon ∉ flag ∧ flag ≠ []

theorem pieces_intercalate_iff (flags : List (List α)) :
    ((pieces semicolon ([semicolon].intercalate flags)).filter fun flag => !flag.isEmpty) = flags ↔
      Flags.Storable flags := by
  constructor
  · intro same flag member
    rw [← same, List.mem_filter] at member
    exact ⟨separator_not_mem_piece member.1, by simpa using member.2⟩
  · intro storable
    rw [pieces_separated storable, List.filter_eq_self]
    intro flag member
    simpa using (storable flag member).2

theorem foldl_readRunLine (run : TransactionRunRecord α) :
    (runLines run).foldl readRunLine { id := run.id } =
      { run with flags := ((pieces semicolon ([semicolon].intercalate run.flags)).filter
          fun flag => !flag.isEmpty) } := by
  have flagLine : text "flags" ++ equalsSign :: [semicolon].intercalate (run.flags.map escape) =
      fieldLine "flags" ([semicolon].intercalate run.flags) := by
    rw [escape_intercalate, fieldLine]
  rw [runLines, flagLine]
  simp (disch := decide) only [List.foldl_cons, List.foldl_nil, readRunLine_fieldLine, String.reduceEq,
    reduceIte, List.nil_append]

/-- A run comes back as it was written exactly when its flags do. -/
theorem deserialize_serializeRun_iff {run : TransactionRunRecord α} (named : run.id ≠ [])
    (stated : run.state ≠ []) (created : run.createdAt ≠ []) (updated : run.updatedAt ≠ []) :
    deserializeRun run.id (serializeRun run) = some run ↔ Flags.Storable run.flags := by
  have read : deserializeRun run.id (serializeRun run) =
      some { run with flags := ((pieces semicolon ([semicolon].intercalate run.flags)).filter
        fun flag => !flag.isEmpty) } := by
    simp [deserializeRun, pieces_serializeRun, foldl_readRunLine, named, stated, created, updated]
  rw [read, Option.some.injEq, ← pieces_intercalate_iff]
  constructor
  · intro same
    exact congrArg TransactionRunRecord.flags same
  · intro same
    rw [same]

end Flags

section Survival

/-- The item that is read back from what was stored under its key. -/
def ItemSurvives (item : TransactionItemRecord α) : Prop :=
  ∃ read, deserializeItem (itemKey item.runId item.package) (serializeItem item) = some read ∧
    read.sequence = item.sequence ∧ read.package = item.package ∧ read.status = item.status ∧
    read.errorMessage = item.errorMessage

def RunSurvives (run : TransactionRunRecord α) : Prop :=
  deserializeRun run.id (serializeRun run) = some run

theorem itemSurvives_iff {item : TransactionItemRecord α} (sequence : item.sequence < 2 ^ 64)
    (typed : item.package.Typed) (stated : item.status ≠ []) (plain : colon ∉ item.runId) :
    ItemSurvives item ↔ item.runId ≠ [] := by
  constructor
  · intro survives
    obtain ⟨read, found, _⟩ := survives
    intro unnamed
    rw [unnamed, deserializeItem, parseItemKey_unnamed] at found
    cases found
  · intro named
    have parsed := (itemOf_itemKey named plain item.package).parse
    refine ⟨{ item with runId := item.runId, itemId := itemIdForPackage item.package }, ?_, rfl, rfl, rfl, rfl⟩
    rw [deserialize_serializeItem sequence typed parsed, if_neg (by simpa using stated)]

/-- Every item with a run id survives whatever its fields hold; a run survives exactly when
none of its flags is empty or holds a semicolon. -/
theorem records_survive_iff {item : TransactionItemRecord α} {run : TransactionRunRecord α}
    (sequence : item.sequence < 2 ^ 64) (typed : item.package.Typed) (itemStated : item.status ≠ [])
    (plain : colon ∉ item.runId) (named : run.id ≠ []) (stated : run.state ≠ [])
    (created : run.createdAt ≠ []) (updated : run.updatedAt ≠ []) :
    (ItemSurvives item ∧ RunSurvives run) ↔
      item.runId ≠ [] ∧ ∀ flag ∈ run.flags, semicolon ∉ flag ∧ flag ≠ [] := by
  rw [itemSurvives_iff sequence typed itemStated plain, RunSurvives,
    deserialize_serializeRun_iff named stated created updated]
  rfl

/-- An item whose error looks like further lines of the record. -/
def forgedItem : TransactionItemRecord UInt8 :=
  { runId := text "7-1", itemId := [], sequence := 18446744073709551615, package := gccInstall
    status := text "failed", errorMessage := text "boom\nstatus=success\\" }

def flaggedRun (flags : List (List UInt8)) : TransactionRunRecord UInt8 :=
  { id := text "7-1", state := text "open", createdAt := text "7", updatedAt := text "8", flags := flags }

theorem records_survive_forged :
    (ItemSurvives forgedItem ∧ RunSurvives (flaggedRun [text "--message=a\nflags=b", text "--yes"])) := by
  have plain : colon ∉ forgedItem.runId :=
    symbol_not_mem_text (by decide) (by decide) (by decide)
  exact (records_survive_iff (by decide) ⟨by decide, by decide⟩ (by decide) plain (by decide) (by decide)
    (by decide) (by decide)).mpr ⟨by decide, by decide⟩

/-- A flag that holds a semicolon is read as two. -/
theorem flag_is_cut :
    deserializeRun (text "7-1") (serializeRun (flaggedRun [text "--set=a;b"])) =
        some (flaggedRun [text "--set=a", text "b"]) ∧
      ¬ RunSurvives (flaggedRun [text "--set=a;b"]) := by
  have read : deserializeRun (text "7-1") (serializeRun (flaggedRun [text "--set=a;b"])) =
      some (flaggedRun [text "--set=a", text "b"]) := by decide
  refine ⟨read, fun survives => ?_⟩
  rw [RunSurvives, show (flaggedRun [text "--set=a;b"]).id = text "7-1" from rfl, read] at survives
  revert survives
  decide

end Survival

end ReqPack.Storage
