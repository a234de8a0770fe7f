import ReqPack.Remote.Framing

/-! # JSON requests

The client writes its request as one line with a field for everything it sends; the
server looks every field up by the text of its key.  A quotation mark inside a value is
always written behind a backslash, so no value looks like a key.
-/

namespace ReqPack.Remote

open ReqPack.Data
open ReqPack.Data.Ascii

def escapeJsonByte (c : UInt8) : Bytes :=
  if c = doubleQuote then [backslash, doubleQuote]
  else if c = backslash then [backslash, backslash]
  else if c = newline then [backslash, 110]
  else if c = carriageReturn then [backslash, 114]
  else if c = 9 then [backslash, 116]
  else [c]

def escapeJson (value : Bytes) : Bytes := value.flatMap escapeJsonByte

def jsonStringField (key : String) (value : Bytes) : Bytes :=
  doubleQuote :: (escapeJson (bytes key) ++ [doubleQuote, 58, doubleQuote] ++ escapeJson value ++ [doubleQuote])

/-- What the client knows about itself. -/
structure RemoteProfile where
  token : Option Bytes
  username : Option Bytes
  password : Option Bytes
deriving DecidableEq, Repr

/-- A field that is sent when there is a value for it. -/
def optionalField (key : String) : Option Bytes → Bytes
  | none => []
  | some value => 44 :: jsonStringField key value

/-- The request `run_json_client_session` sends, without its newline. -/
def jsonRequest (commandLine : Bytes) (profile : RemoteProfile) : Bytes :=
  123 :: (jsonStringField "command" commandLine ++ optionalField "token" profile.token ++
    optionalField "username" profile.username ++ optionalField "password" profile.password ++ [125])

/-! ## Escaped values -/

section Values

/-- A byte is escaped behind a backslash, or left alone. -/
theorem escapeJsonByte_cases (c : UInt8) :
    (escapeJsonByte c = [c] ∧ c ≠ doubleQuote ∧ c ≠ backslash ∧ c ≠ newline ∧ c ≠ carriageReturn) ∨
      ∃ escaped, escapeJsonByte c = [backslash, escaped] ∧ unescapeJson escaped = c ∧
        escaped ≠ newline ∧ escaped ≠ carriageReturn := by
  rw [escapeJsonByte]
  by_cases quote : c = doubleQuote
  · exact Or.inr ⟨doubleQuote, by simp [quote], by rw [quote]; decide, by decide, by decide⟩
  · by_cases slash : c = backslash
    · exact Or.inr ⟨backslash, by simp [slash, show backslash ≠ doubleQuote by decide], by rw [slash]; decide,
        by decide, by decide⟩
    · by_cases line : c = newline
      · exact Or.inr ⟨110, by simp [line, show newline ≠ doubleQuote by decide,
          show newline ≠ backslash by decide], by rw [line]; decide, by decide, by decide⟩
      · by_cases carriage : c = carriageReturn
        · exact Or.inr ⟨114, by simp [carriage, show carriageReturn ≠ doubleQuote by decide,
            show carriageReturn ≠ backslash by decide, show carriageReturn ≠ newline by decide],
            by rw [carriage]; decide, by decide, by decide⟩
        · by_cases tab : c = 9
          · exact Or.inr ⟨116, by simp [tab, show (9 : UInt8) ≠ doubleQuote by decide,
              show (9 : UInt8) ≠ backslash by decide, show (9 : UInt8) ≠ newline by decide,
              show (9 : UInt8) ≠ carriageReturn by decide], by rw [tab]; decide, by decide, by decide⟩
          · exact Or.inl ⟨by simp [quote, slash, line, carriage, tab], quote, slash, line, carriage⟩

theorem readJsonString_escaped (value rest read : Bytes) :
    readJsonString false read (escapeJson value ++ doubleQuote :: rest) = some (read ++ value) := by
  induction value generalizing read with
  | nil => simp [escapeJson, readJsonString, show doubleQuote ≠ backslash by decide]
  | cons c value ih =>
      rw [escapeJson, List.flatMap_cons, List.append_assoc, ← escapeJson]
      rcases escapeJsonByte_cases c with ⟨alone, quote, slash, _, _⟩ | ⟨escaped, pair, back, _, _⟩
      · rw [alone, List.singleton_append, readJsonString]
        simp only [slash, quote, if_false, Bool.false_eq_true]
        rw [ih]
        simp
      · have first : readJsonString false read (backslash :: escaped :: (escapeJson value ++ doubleQuote :: rest)) =
            readJsonString false (read ++ [c]) (escapeJson value ++ doubleQuote :: rest) := by
          rw [← back]
          rfl
        rw [pair, List.cons_append, List.singleton_append, first, ih]
        simp

theorem escapeJson_lines (value : Bytes) : newline ∉ escapeJson value ∧ carriageReturn ∉ escapeJson value := by
  induction value with
  | nil => simp [escapeJson]
  | cons c value ih =>
      rw [escapeJson, List.flatMap_cons, ← escapeJson]
      rcases escapeJsonByte_cases c with ⟨alone, _, _, line, carriage⟩ | ⟨escaped, pair, _, line, carriage⟩
      · rw [alone]
        simp [ih, Ne.symm line, Ne.symm carriage]
      · rw [pair]
        simp [ih, Ne.symm line, Ne.symm carriage, show newline ≠ backslash by decide,
          show carriageReturn ≠ backslash by decide]

end Values

/-! ## Looking a key up -/

section Keys

/-- The name of a field: letters and nothing that is escaped. -/
def PlainKey (key : Bytes) : Prop := key ≠ [] ∧ ∀ c ∈ key, isAlnum c = true

theorem isAlnum_apart {c : UInt8} (letter : isAlnum c = true) :
    c ≠ doubleQuote ∧ c ≠ backslash ∧ c ≠ 58 ∧ c ≠ 44 ∧ c ≠ 125 ∧ c ≠ 123 := by
  refine ⟨?_, ?_, ?_, ?_, ?_, ?_⟩ <;>
    · rintro rfl
      exact absurd letter (by decide)

/-- What the server looks for. -/
def keyPattern (key : Bytes) : Bytes := doubleQuote :: (key ++ [doubleQuote, 58, doubleQuote])

/-- The text behind the opening quotation mark of a value is no key. -/
theorem key_not_prefix_value {key value rest : Bytes} (letters : ∀ c ∈ key, isAlnum c = true)
    (behind : rest.head? ≠ some 58) :
    ¬ key ++ [doubleQuote, 58, doubleQuote] <+: escapeJson value ++ doubleQuote :: rest := by
  induction value generalizing key with
  | nil =>
      intro found
      cases key with
      | nil =>
          obtain ⟨more, same⟩ := found
          simp only [List.nil_append, List.cons_append, escapeJson, List.flatMap_nil,
            List.cons.injEq, true_and] at same
          rw [← same] at behind
          exact behind rfl
      | cons c key =>
          obtain ⟨more, same⟩ := found
          simp only [List.cons_append, escapeJson, List.flatMap_nil, List.nil_append, List.cons.injEq] at same
          exact (isAlnum_apart (letters c List.mem_cons_self)).1 same.1
  | cons c value ih =>
      intro found
      rw [escapeJson, List.flatMap_cons, List.append_assoc, ← escapeJson] at found
      rcases escapeJsonByte_cases c with ⟨alone, quote, slash, _, _⟩ | ⟨escaped, pair, _, _, _⟩
      · rw [alone, List.singleton_append] at found
        cases key with
        | nil => exact quote (List.cons_prefix_cons.mp found).1.symm
        | cons first key =>
            exact ih (fun d member => letters d (List.mem_cons_of_mem _ member))
              (List.cons_prefix_cons.mp found).2
      · rw [pair, List.cons_append] at found
        cases key with
        | nil => exact absurd (List.cons_prefix_cons.mp found).1 (by decide)
        | cons first key =>
            exact (isAlnum_apart (letters first List.mem_cons_self)).2.1 (List.cons_prefix_cons.mp found).1

theorem key_eq_of_prefixed {key other rest : Bytes} (letters : ∀ c ∈ key, isAlnum c = true)
    (otherLetters : ∀ c ∈ other, isAlnum c = true)
    (found : key ++ [doubleQuote, 58, doubleQuote] <+: other ++ doubleQuote :: rest) : key = other := by
  induction key generalizing other with
  | nil =>
      cases other with
      | nil => rfl
      | cons c other =>
          have quote := (List.cons_prefix_cons.mp found).1
          exact absurd quote.symm (isAlnum_apart (otherLetters c List.mem_cons_self)).1
  | cons c key ih =>
      cases other with
      | nil => exact absurd (List.cons_prefix_cons.mp found).1 (isAlnum_apart (letters c List.mem_cons_self)).1
      | cons d other =>
          obtain ⟨rfl, rest⟩ := List.cons_prefix_cons.mp found
          rw [ih (fun e member => letters e (List.mem_cons_of_mem _ member))
            (fun e member => otherLetters e (List.mem_cons_of_mem _ member)) rest]

theorem escapeJson_letters {key : Bytes} (letters : ∀ c ∈ key, isAlnum c = true) : escapeJson key = key := by
  induction key with
  | nil => rfl
  | cons c key ih =>
      have letter := letters c List.mem_cons_self
      have apart {special : UInt8} (marks : isAlnum special = false) : c ≠ special := by
        rintro rfl
        rw [letter] at marks
        cases marks
      have alone : escapeJsonByte c = [c] := by
        rw [escapeJsonByte, if_neg (apart (by decide)), if_neg (apart (by decide)), if_neg (apart (by decide)),
          if_neg (apart (by decide)), if_neg (apart (by decide))]
      rw [escapeJson, List.flatMap_cons, ← escapeJson, alone, ih fun d member => letters d (List.mem_cons_of_mem _ member)]
      rfl

/-- The text behind the first occurrence of a pattern. -/
def textBehind (pattern text : Bytes) : Option Bytes := (splitFirst pattern text).map Prod.snd

theorem textBehind_skip {pattern rest : Bytes} {c : UInt8} (apart : ¬ pattern <+: c :: rest) :
    textBehind pattern (c :: rest) = textBehind pattern rest := by
  rw [textBehind, splitFirst, if_neg (by rwa [List.isPrefixOf_iff_prefix]), Option.map_map]
  rfl

theorem textBehind_found {pattern rest : Bytes} (present : pattern ≠ []) :
    textBehind pattern (pattern ++ rest) = some rest := by
  cases pattern with
  | nil => exact absurd rfl present
  | cons c pattern =>
      have found : (c :: pattern).isPrefixOf (c :: (pattern ++ rest)) = true := by
        rw [List.isPrefixOf_iff_prefix]
        exact ⟨rest, rfl⟩
      rw [textBehind, List.cons_append, splitFirst, if_pos found]
      simp

/-- A key begins with a quotation mark and a letter. -/
theorem keyPattern_apart {key rest : Bytes} {c : UInt8} (other : c ≠ doubleQuote) :
    ¬ keyPattern key <+: c :: rest := by
  intro found
  exact other (List.cons_prefix_cons.mp found).1.symm

theorem keyPattern_letter {key rest : Bytes} {c : UInt8} (plain : PlainKey key) (other : isAlnum c = false) :
    ¬ keyPattern key <+: doubleQuote :: c :: rest := by
  intro found
  obtain ⟨present, letters⟩ := plain
  cases key with
  | nil => exact present rfl
  | cons first key =>
      have same := (List.cons_prefix_cons.mp (List.cons_prefix_cons.mp found).2).1
      rw [← same, letters first List.mem_cons_self] at other
      cases other

theorem textBehind_plain {key text rest : Bytes} (unquoted : doubleQuote ∉ text) :
    textBehind (keyPattern key) (text ++ rest) = textBehind (keyPattern key) rest := by
  induction text with
  | nil => rfl
  | cons c text ih =>
      simp only [List.mem_cons, not_or] at unquoted
      rw [List.cons_append, textBehind_skip (keyPattern_apart (Ne.symm unquoted.1)), ih unquoted.2]

/-- What follows a field: a further one or the end of the request. -/
def EndsField (rest : Bytes) : Prop := ∃ c more, rest = c :: more ∧ isAlnum c = false ∧ c ≠ 58

/-- No key begins inside a value, and none at the mark that ends it. -/
theorem textBehind_value {key value rest : Bytes} (plain : PlainKey key) (ends : EndsField rest) :
    textBehind (keyPattern key) (escapeJson value ++ doubleQuote :: rest) = textBehind (keyPattern key) rest := by
  obtain ⟨last, more, rfl, mark, colon⟩ := ends
  induction value with
  | nil =>
      rw [escapeJson, List.flatMap_nil, List.nil_append]
      exact textBehind_skip (keyPattern_letter plain mark)
  | cons c value ih =>
      rw [escapeJson, List.flatMap_cons, List.append_assoc, ← escapeJson]
      rcases escapeJsonByte_cases c with ⟨alone, quote, _⟩ | ⟨escaped, pair, _⟩
      · rw [alone, List.singleton_append, textBehind_skip (keyPattern_apart quote), ih]
      · rw [pair, List.cons_append, List.singleton_append, textBehind_skip (keyPattern_apart (by decide))]
        by_cases quoted : escaped = doubleQuote
        · subst quoted
          have inside : ¬ keyPattern key <+: doubleQuote :: (escapeJson value ++ doubleQuote :: last :: more) := by
            intro found
            refine key_not_prefix_value plain.2 ?_ (List.cons_prefix_cons.mp found).2
            simpa using colon
          rw [textBehind_skip inside, ih]
        · rw [textBehind_skip (keyPattern_apart quoted), ih]

theorem keyText (key : String) (value : Bytes) (letters : ∀ c ∈ bytes key, isAlnum c = true) :
    jsonStringField key value =
      doubleQuote :: (bytes key ++ doubleQuote :: 58 :: doubleQuote :: (escapeJson value ++ [doubleQuote])) := by
  simp [jsonStringField, escapeJson_letters letters]

/-- A field with another key is passed over. -/
theorem textBehind_field {key : Bytes} {other : String} {value rest : Bytes} (plain : PlainKey key)
    (otherPlain : PlainKey (bytes other)) (apart : key ≠ bytes other) (ends : EndsField rest) :
    textBehind (keyPattern key) (jsonStringField other value ++ rest) = textBehind (keyPattern key) rest := by
  obtain ⟨last, more, same, mark, colon⟩ := ends
  have unquoted : doubleQuote ∉ bytes other := fun member => (isAlnum_apart (otherPlain.2 _ member)).1 rfl
  have otherKey (text : Bytes) : ¬ keyPattern key <+: doubleQuote :: (bytes other ++ doubleQuote :: text) := by
    intro found
    exact apart (key_eq_of_prefixed plain.2 otherPlain.2 (List.cons_prefix_cons.mp found).2)
  have noValue : ¬ keyPattern key <+: doubleQuote :: (escapeJson value ++ doubleQuote :: rest) := by
    intro found
    refine key_not_prefix_value plain.2 ?_ (List.cons_prefix_cons.mp found).2
    rw [same]
    simpa using colon
  rw [keyText _ _ otherPlain.2, List.cons_append, List.append_assoc, List.cons_append, List.cons_append,
    List.cons_append, List.append_assoc, List.singleton_append]
  rw [textBehind_skip (otherKey _), textBehind_plain unquoted,
    textBehind_skip (keyPattern_letter plain (by decide)), textBehind_skip (keyPattern_apart (by decide)),
    textBehind_skip noValue, textBehind_value plain ⟨last, more, same, mark, colon⟩]

/-- The field with the key is found. -/
theorem textBehind_own {key : String} {value rest : Bytes} (plain : PlainKey (bytes key)) :
    textBehind (keyPattern (bytes key)) (jsonStringField key value ++ rest) =
      some (escapeJson value ++ doubleQuote :: rest) := by
  have text : jsonStringField key value ++ rest =
      keyPattern (bytes key) ++ (escapeJson value ++ doubleQuote :: rest) := by
    simp [keyText _ _ plain.2, keyPattern]
  rw [text, textBehind_found (by simp [keyPattern])]

end Keys

/-! ## Requests -/

section Requests

/-- Fields behind the first one. -/
def furtherFields (fields : List (String × Bytes)) : Bytes :=
  fields.flatMap fun field => 44 :: jsonStringField field.1 field.2

theorem furtherFields_ends (fields : List (String × Bytes)) : EndsField (furtherFields fields ++ [125]) := by
  cases fields with
  | nil => exact ⟨125, [], rfl, by decide, by decide⟩
  | cons field fields => exact ⟨44, _, rfl, by decide, by decide⟩

theorem textBehind_fields {key : String} {fields : List (String × Bytes)} (plain : PlainKey (bytes key))
    (named : ∀ field ∈ fields, PlainKey (bytes field.1))
    (distinct : ∀ field ∈ fields, field.1 ≠ key → bytes field.1 ≠ bytes key) :
    (textBehind (keyPattern (bytes key)) (furtherFields fields ++ [125])).bind (readJsonString false []) =
      (fields.find? fun field => decide (field.1 = key)).map Prod.snd := by
  induction fields with
  | nil =>
      have nothing : textBehind (keyPattern (bytes key)) [125] = none := by
        rw [textBehind_skip (keyPattern_apart (by decide))]
        rfl
      simp [furtherFields, nothing]
  | cons field fields ih =>
      have comma : furtherFields (field :: fields) ++ [125] =
          44 :: (jsonStringField field.1 field.2 ++ (furtherFields fields ++ [125])) := by
        simp [furtherFields]
      rw [comma, textBehind_skip (keyPattern_apart (by decide)), List.find?_cons]
      by_cases same : field.1 = key
      · rw [same, textBehind_own plain, Option.bind_some, readJsonString_escaped]
        simp
      · have apart := distinct field List.mem_cons_self same
        rw [textBehind_field plain (named field List.mem_cons_self) (Ne.symm apart) (furtherFields_ends fields)]
        simp only [same, decide_false]
        exact ih (fun other member => named other (List.mem_cons_of_mem _ member))
          (fun other member => distinct other (List.mem_cons_of_mem _ member))

/-- The fields of a request. -/
def requestFields (commandLine : Bytes) (profile : RemoteProfile) : List (String × Bytes) :=
  ("command", commandLine) :: (profile.token.toList.map (fun value => ("token", value)) ++
    profile.username.toList.map (fun value => ("username", value)) ++
    profile.password.toList.map (fun value => ("password", value)))

theorem optionalField_eq (key : String) (value : Option Bytes) :
    optionalField key value = furtherFields (value.toList.map fun value => (key, value)) := by
  cases value with
  | none => rfl
  | some value => simp [optionalField, furtherFields]

theorem jsonRequest_eq (commandLine : Bytes) (profile : RemoteProfile) :
    44 :: (jsonRequest commandLine profile).tail =
      furtherFields (requestFields commandLine profile) ++ [125] := by
  simp [jsonRequest, requestFields, optionalField_eq, furtherFields]

theorem requestFields_named (commandLine : Bytes) (profile : RemoteProfile) :
    ∀ field ∈ requestFields commandLine profile,
      field.1 = "command" ∨ field.1 = "token" ∨ field.1 = "username" ∨ field.1 = "password" := by
  intro field member
  simp only [requestFields, List.mem_cons, List.mem_append, List.mem_map] at member
  rcases member with rfl | (⟨value, _, rfl⟩ | ⟨value, _, rfl⟩) | ⟨value, _, rfl⟩
  · exact Or.inl rfl
  · exact Or.inr (Or.inl rfl)
  · exact Or.inr (Or.inr (Or.inl rfl))
  · exact Or.inr (Or.inr (Or.inr rfl))

theorem plainKeys {key : String}
    (known : key = "command" ∨ key = "token" ∨ key = "username" ∨ key = "password") : PlainKey (bytes key) := by
  rcases known with rfl | rfl | rfl | rfl
  all_goals exact ⟨by decide, List.all_eq_true.mp (by decide)⟩

theorem keys_distinct {key other : String}
    (known : key = "command" ∨ key = "token" ∨ key = "username" ∨ key = "password")
    (otherKnown : other = "command" ∨ other = "token" ∨ other = "username" ∨ other = "password")
    (apart : other ≠ key) : bytes other ≠ bytes key := by
  rcases known with rfl | rfl | rfl | rfl <;> rcases otherKnown with rfl | rfl | rfl | rfl <;>
    first
      | exact absurd rfl apart
      | decide

/-- A field of the request is read back, and one that was left out is absent. -/
theorem extract_request {commandLine : Bytes} {profile : RemoteProfile} {key : String}
    (known : key = "command" ∨ key = "token" ∨ key = "username" ∨ key = "password") :
    extractJsonStringField (jsonRequest commandLine profile) key =
      ((requestFields commandLine profile).find? fun field => decide (field.1 = key)).map Prod.snd := by
  have named := requestFields_named commandLine profile
  rw [← textBehind_fields (plainKeys known) (fun field member => plainKeys (named field member))
    (fun field member => keys_distinct known (named field member)), ← jsonRequest_eq,
    textBehind_skip (keyPattern_apart (by decide))]
  have brace : textBehind (keyPattern (bytes key)) (jsonRequest commandLine profile) =
      textBehind (keyPattern (bytes key)) (jsonRequest commandLine profile).tail :=
    textBehind_skip (keyPattern_apart (by decide))
  rw [← brace, extractJsonStringField, textBehind, ← keyPattern]
  cases splitFirst (keyPattern (bytes key)) (jsonRequest commandLine profile) with
  | none => rfl
  | some parts => rfl

theorem jsonRequest_braced (commandLine : Bytes) (profile : RemoteProfile) :
    trimCopy (jsonRequest commandLine profile) = jsonRequest commandLine profile ∧
      braced (jsonRequest commandLine profile) = true := by
  have last : (jsonRequest commandLine profile).getLast? = some 125 := by
    rw [jsonRequest, ← List.cons_append, List.getLast?_append]
    rfl
  have trimmed : trimCopy (jsonRequest commandLine profile) = jsonRequest commandLine profile := by
    apply trimCopy_of_ends
    · intro c head
      cases head
      decide
    · intro c final
      rw [last] at final
      cases final
      decide
  refine ⟨trimmed, ?_⟩
  rw [braced, trimmed, last]
  rfl

theorem jsonStringField_lines {key : String} (value : Bytes) (plain : PlainKey (bytes key)) :
    newline ∉ jsonStringField key value ∧ carriageReturn ∉ jsonStringField key value := by
  have letters {c : UInt8} (mark : isAlnum c = false) : c ∉ bytes key := by
    intro member
    rw [plain.2 c member] at mark
    cases mark
  have value := escapeJson_lines value
  rw [keyText _ _ plain.2]
  simp [letters, value, show isAlnum newline = false by decide, show isAlnum carriageReturn = false by decide,
    show newline ≠ doubleQuote by decide, show newline ≠ 58 by decide,
    show carriageReturn ≠ doubleQuote by decide, show carriageReturn ≠ 58 by decide]

theorem furtherFields_lines {fields : List (String × Bytes)}
    (named : ∀ field ∈ fields, PlainKey (bytes field.1)) :
    newline ∉ furtherFields fields ∧ carriageReturn ∉ furtherFields fields := by
  induction fields with
  | nil => simp [furtherFields]
  | cons field fields ih =>
      have rest := ih fun other member => named other (List.mem_cons_of_mem _ member)
      have first := jsonStringField_lines field.2 (named field List.mem_cons_self)
      rw [furtherFields, List.flatMap_cons, ← furtherFields]
      simp [first, rest, show newline ≠ 44 by decide, show carriageReturn ≠ 44 by decide]

/-- The request is one line of the stream. -/
theorem jsonRequest_lines (commandLine : Bytes) (profile : RemoteProfile) :
    newline ∉ jsonRequest commandLine profile ∧ carriageReturn ∉ jsonRequest commandLine profile := by
  have fields := furtherFields_lines fun field member =>
    plainKeys (requestFields_named commandLine profile field member)
  have braced : jsonRequest commandLine profile = 123 :: (jsonRequest commandLine profile).tail := rfl
  have inside (c : UInt8) (absent : c ∉ furtherFields (requestFields commandLine profile)) (apart : c ≠ 125) :
      c ∉ (jsonRequest commandLine profile).tail := by
    intro member
    have further : c ∈ furtherFields (requestFields commandLine profile) ++ [125] := by
      rw [← jsonRequest_eq]
      exact List.mem_cons_of_mem _ member
    simp [absent, apart] at further
  rw [braced]
  simp only [List.mem_cons, not_or]
  exact ⟨⟨by decide, inside _ fields.1 (by decide)⟩, by decide, inside _ fields.2 (by decide)⟩

theorem find_request (commandLine : Bytes) (profile : RemoteProfile) :
    ((requestFields commandLine profile).find? fun field => decide (field.1 = "command")).map Prod.snd =
        some commandLine ∧
      ((requestFields commandLine profile).find? fun field => decide (field.1 = "token")).map Prod.snd =
        profile.token ∧
      ((requestFields commandLine profile).find? fun field => decide (field.1 = "username")).map Prod.snd =
        profile.username ∧
      ((requestFields commandLine profile).find? fun field => decide (field.1 = "password")).map Prod.snd =
        profile.password := by
  cases profile with
  | mk token username password =>
      cases token <;> cases username <;> cases password <;> simp [requestFields]

theorem parse_jsonRequest (commandLine : Bytes) (profile : RemoteProfile) :
    parseJsonCommand (jsonRequest commandLine profile) =
      some ⟨commandLine, profile.token, profile.username, profile.password⟩ := by
  obtain ⟨trimmed, braced⟩ := jsonRequest_braced commandLine profile
  obtain ⟨command, token, username, password⟩ := find_request commandLine profile
  rw [parseJsonCommand, if_pos braced]
  simp only [trimmed]
  rw [extract_request (Or.inl rfl), extract_request (Or.inr (Or.inl rfl)),
    extract_request (Or.inr (Or.inr (Or.inl rfl))), extract_request (Or.inr (Or.inr (Or.inr rfl))),
    command, token, username, password]
  rfl

theorem nextLine_jsonRequest (commandLine : Bytes) (profile : RemoteProfile) (rest : Bytes) :
    nextLine (jsonRequest commandLine profile ++ newline :: rest) =
      some (jsonRequest commandLine profile, rest) :=
  nextLine_terminated (jsonRequest_lines commandLine profile).1 (jsonRequest_lines commandLine profile).2 rest

/-- The server reads one line off the stream and finds in it the command and every
credential the client put in, and none it left out. -/
theorem json_request_decodes (commandLine : Bytes) (profile : RemoteProfile) (rest : Bytes) :
    nextLine (jsonRequest commandLine profile ++ newline :: rest) =
        some (jsonRequest commandLine profile, rest) ∧
      parseJsonCommand (jsonRequest commandLine profile) =
        some ⟨commandLine, profile.token, profile.username, profile.password⟩ :=
  ⟨nextLine_jsonRequest commandLine profile rest, parse_jsonRequest commandLine profile⟩

end Requests

end ReqPack.Remote
