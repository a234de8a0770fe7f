import ReqPack.Registry.Record
import ReqPack.Storage.InstalledCodec

/-! # How a registry record is stored

`registry_database_serialize_record` and `registry_database_deserialize_record`: header
lines `field=value`, a separator, and the script as it is.  `restoredRecord` is what the
two come to.
-/

namespace ReqPack.Registry

open ReqPack.Data ReqPack.Core ReqPack.Storage

/-- `META_SEPARATOR`. -/
def metaSeparator : List Char := "\n---\n".toList

section Scopes

def escapeScopeComponent (value : List Char) : List Char :=
  value.flatMap fun letter =>
    if letter = '\\' ∨ letter = '|' then ['\\', letter]
    else if letter = '\n' then ['\\', 'n']
    else [letter]

def addLetter (letter : Char) : List (List Char) → List (List Char)
  | [] => [[letter]]
  | field :: fields => (letter :: field) :: fields

/-- The fields of a line; the flag tells that the last letter escapes the next one. -/
def splitEscapedFrom : Bool → List Char → List (List Char)
  | _, [] => [[]]
  | false, letter :: rest =>
      if letter = '\\' then addLetter letter (splitEscapedFrom true rest)
      else if letter = '|' then [] :: splitEscapedFrom false rest
      else addLetter letter (splitEscapedFrom false rest)
  | true, letter :: rest => addLetter letter (splitEscapedFrom false rest)

def splitEscapedFields (line : List Char) : List (List Char) := splitEscapedFrom false line

def scopeLine (components : List String) : List Char :=
  ['|'].intercalate (components.map fun component => escapeScopeComponent component.toList)

def serializeWriteScopes (scopes : List RegistryWriteScope) : List Char :=
  ['\n'].intercalate (scopes.map fun scope => scopeLine [scope.kind, scope.value])

def serializeNetworkScopes (scopes : List RegistryNetworkScope) : List Char :=
  ['\n'].intercalate (scopes.map fun scope => scopeLine [scope.host, scope.scheme, scope.pathPrefix])

/-- The components of the lines of a text that are not empty. -/
def readScopeLines (value : List Char) : List (List String) :=
  ((pieces '\n' value).filter fun line => !line.isEmpty).map fun line =>
    (splitEscapedFields line).map fun field => String.ofList (unescape field)

def deserializeWriteScopes (value : List Char) : List RegistryWriteScope :=
  (readScopeLines value).map fun fields => { kind := fields.getD 0 "", value := fields.getD 1 "" }

def deserializeNetworkScopes (value : List Char) : List RegistryNetworkScope :=
  (readScopeLines value).map fun fields =>
    { host := fields.getD 0 "", scheme := fields.getD 1 "", pathPrefix := fields.getD 2 "" }

end Scopes

section Records

/-- The text of the path of a registry file. -/
def pathText (path : List String) : String := String.ofList (['/'].intercalate (path.map String.toList))

def pathOfText (path : String) : List String :=
  if path.isEmpty then [] else (path.toList.splitOn '/').map String.ofList

def flagText (flag : Bool) : List Char := if flag then "1".toList else "0".toList

def headerLines (record : RegistryRecord) : List (List Char) :=
  [fieldLine "source" record.source.toList,
    fieldLine "alias" (flagText record.isAlias),
    fieldLine "originPath" (pathText record.originPath).toList,
    fieldLine "description" record.description.toList,
    fieldLine "role" record.role.toList,
    fieldLine "targetSystem" record.targetSystem.toList,
    fieldLine "capabilities" (joinLines record.capabilities).toList,
    fieldLine "ecosystemScopes" (joinLines record.ecosystemScopes).toList,
    fieldLine "writeScopes" (serializeWriteScopes record.writeScopes),
    fieldLine "networkScopes" (serializeNetworkScopes record.networkScopes),
    fieldLine "privilegeLevel" record.privilegeLevel.toList,
    fieldLine "scriptSha256" record.scriptSha256.toList,
    fieldLine "bootstrapSha256" record.bootstrapSha256.toList,
    fieldLine "bundleSource" (flagText record.bundleSource),
    fieldLine "bundlePath" record.bundlePath.toList,
    fieldLine "bootstrap" record.bootstrapScript.toList]

/-- `registry_database_serialize_record`. -/
def serializeRecord (record : RegistryRecord) : List Char :=
  ((headerLines record).flatMap fun line => line ++ ['\n']) ++ (metaSeparator ++ record.script.toList)

/-- The text before and behind the first separator. -/
def cutAtText (separator : List Char) : List Char → Option (List Char × List Char)
  | [] => if separator.isEmpty then some ([], []) else none
  | letter :: rest =>
      if separator.isPrefixOf (letter :: rest) then some ([], (letter :: rest).drop separator.length)
      else (cutAtText separator rest).map fun parts => (letter :: parts.1, parts.2)

def flagOfText (value : List Char) : Option Bool :=
  if value = "1".toList then some true else if value = "0".toList then some false else none

/-- What the reader does with a field; a flag that is neither `1` nor `0` makes the record
unreadable. -/
def readField (record : RegistryRecord) (field value : List Char) : Option RegistryRecord :=
  if field = text "source" then some { record with source := String.ofList value }
  else if field = text "alias" then (flagOfText value).map fun flag => { record with isAlias := flag }
  else if field = text "originPath" then some { record with originPath := pathOfText (String.ofList value) }
  else if field = text "description" then some { record with description := String.ofList value }
  else if field = text "role" then some { record with role := String.ofList value }
  else if field = text "targetSystem" then some { record with targetSystem := String.ofList value }
  else if field = text "capabilities" then
    some { record with capabilities := splitLines (String.ofList value) }
  else if field = text "ecosystemScopes" then
    some { record with ecosystemScopes := splitLines (String.ofList value) }
  else if field = text "writeScopes" then some { record with writeScopes := deserializeWriteScopes value }
  else if field = text "networkScopes" then
    some { record with networkScopes := deserializeNetworkScopes value }
  else if field = text "privilegeLevel" then some { record with privilegeLevel := String.ofList value }
  else if field = text "scriptSha256" then some { record with scriptSha256 := String.ofList value }
  else if field = text "bootstrapSha256" then some { record with bootstrapSha256 := String.ofList value }
  else if field = text "bundleSource" then
    (flagOfText value).map fun flag => { record with bundleSource := flag }
  else if field = text "bundlePath" then some { record with bundlePath := String.ofList value }
  else if field = text "bootstrap" then some { record with bootstrapScript := String.ofList value }
  else some record

def readRecordLine (record : RegistryRecord) (line : List Char) : Option RegistryRecord :=
  match cutAt equalsSign line with
  | none => some record
  | some (field, escaped) => readField record field (unescape escaped)

/-- `registry_database_deserialize_record`. -/
def deserializeRecord (name : String) (payload : List Char) : Option RegistryRecord := do
  let (header, script) ← cutAtText metaSeparator payload
  let record ← (pieces '\n' header).foldlM readRecordLine { name := name, script := String.ofList script }
  if record.source.isEmpty && !record.isAlias then none
  else if canMaterializePlugin record && !record.script.isEmpty && !isValidPluginScript record.script then none
  else some record

end Records

/-! ## What is written is read back -/

section ScopeRoundTrip

theorem foldr_addLetter (letters field : List Char) (fields : List (List Char)) :
    letters.foldr addLetter (field :: fields) = (letters ++ field) :: fields := by
  induction letters with
  | nil => rfl
  | cons letter letters ih => simp [ih, addLetter]

theorem escapeScopeComponent_cons (letter : Char) (rest : List Char) :
    escapeScopeComponent (letter :: rest) =
      (if letter = '\\' ∨ letter = '|' then ['\\', letter]
       else if letter = '\n' then ['\\', 'n'] else [letter]) ++ escapeScopeComponent rest := by
  simp [escapeScopeComponent]

/-- An escaped component is never cut. -/
theorem splitEscapedFrom_component (value rest : List Char) :
    splitEscapedFrom false (escapeScopeComponent value ++ rest) =
      (escapeScopeComponent value).foldr addLetter (splitEscapedFrom false rest) := by
  induction value with
  | nil => rfl
  | cons letter value ih =>
      rw [escapeScopeComponent_cons]
      by_cases special : letter = '\\' ∨ letter = '|'
      · simp [special, splitEscapedFrom, ih]
      · obtain ⟨notSlash, notBar⟩ := not_or.mp special
        by_cases newLine : letter = '\n'
        · simp [newLine, splitEscapedFrom, ih]
        · simp [notSlash, notBar, newLine, splitEscapedFrom, ih]

theorem unescape_component (value : List Char) : unescape (escapeScopeComponent value) = value := by
  have slash : (backslashSymbol : Char) = '\\' := rfl
  have end_ : (newlineSymbol : Char) = '\n' := rfl
  have letterN : (Alphabet.symbol 'n' : Char) = 'n' := rfl
  rw [unescape]
  induction value with
  | nil => rfl
  | cons letter value ih =>
      rw [escapeScopeComponent_cons]
      by_cases special : letter = '\\' ∨ letter = '|'
      · have notN : letter ≠ 'n' := by
          rcases special with rfl | rfl <;> decide
        simp [special, unescapeFrom, slash, letterN, notN, ih]
      · obtain ⟨notSlash, notBar⟩ := not_or.mp special
        by_cases newLine : letter = '\n'
        · simp [newLine, unescapeFrom, slash, end_, letterN, ih]
        · simp [notSlash, notBar, newLine, unescapeFrom, slash, ih]

theorem newline_not_mem_component (value : List Char) : '\n' ∉ escapeScopeComponent value := by
  intro member
  obtain ⟨letter, _, produced⟩ := List.mem_flatMap.mp member
  split at produced
  · rename_i special
    rcases special with rfl | rfl <;> simp at produced
  · split at produced
    · simp at produced
    · rename_i other
      exact other (List.mem_singleton.mp produced).symm

/-- The components of a line are read back. -/
theorem splitEscapedFields_scopeLine (component : String) (components : List String) :
    (splitEscapedFields (scopeLine (component :: components))).map
        (fun field => String.ofList (unescape field)) = component :: components := by
  have last : splitEscapedFrom false [] = [[]] := rfl
  rw [splitEscapedFields]
  induction components generalizing component with
  | nil =>
      have line : scopeLine [component] = escapeScopeComponent component.toList ++ [] := by simp [scopeLine]
      rw [line, splitEscapedFrom_component, last, foldr_addLetter]
      simp [unescape_component]
  | cons next components ih =>
      have line : scopeLine (component :: next :: components) =
          escapeScopeComponent component.toList ++ '|' :: scopeLine (next :: components) := by
        simp [scopeLine, List.intercalate_cons_cons]
      have bar : splitEscapedFrom false ('|' :: scopeLine (next :: components)) =
          [] :: splitEscapedFrom false (scopeLine (next :: components)) := by
        simp [splitEscapedFrom]
      rw [line, splitEscapedFrom_component, bar, foldr_addLetter, List.map_cons, ih]
      simp [unescape_component]

theorem scopeLine_oneLine (components : List String) : '\n' ∉ scopeLine components := by
  induction components with
  | nil => simp [scopeLine]
  | cons component components ih =>
      cases components with
      | nil => simpa [scopeLine] using newline_not_mem_component component.toList
      | cons next others =>
          simp only [scopeLine, List.map_cons, List.intercalate_cons_cons, List.mem_append,
            List.mem_singleton, not_or] at ih ⊢
          exact ⟨⟨newline_not_mem_component component.toList, by decide⟩, ih⟩

theorem readScopeLines_written {lines : List (List String)} (several : ∀ line ∈ lines, 2 ≤ line.length) :
    readScopeLines (['\n'].intercalate (lines.map scopeLine)) = lines := by
  have written : ∀ line ∈ lines.map scopeLine, '\n' ∉ line ∧ line ≠ [] := by
    intro line member
    obtain ⟨components, listed, rfl⟩ := List.mem_map.mp member
    refine ⟨scopeLine_oneLine components, ?_⟩
    have long := several components listed
    cases components with
    | nil => simp at long
    | cons component components =>
        cases components with
        | nil => simp at long
        | cons next others => simp [scopeLine, List.intercalate_cons_cons]
  have kept : ((lines.map scopeLine).filter fun line => !line.isEmpty) = lines.map scopeLine := by
    rw [List.filter_eq_self]
    intro line member
    simpa using (written line member).2
  rw [readScopeLines, pieces_separated written, kept, List.map_map]
  conv_rhs => rw [← List.map_id lines]
  apply List.map_congr_left
  intro components listed
  have long := several components listed
  cases components with
  | nil => simp at long
  | cons component components => exact splitEscapedFields_scopeLine component components

theorem deserialize_writeScopes (scopes : List RegistryWriteScope) :
    deserializeWriteScopes (serializeWriteScopes scopes) = scopes := by
  have lines := @readScopeLines_written (scopes.map fun scope => [scope.kind, scope.value]) (by simp)
  rw [List.map_map] at lines
  rw [deserializeWriteScopes, serializeWriteScopes]
  simp only [Function.comp_def] at lines
  rw [lines, List.map_map]
  simp [Function.comp_def]

theorem deserialize_networkScopes (scopes : List RegistryNetworkScope) :
    deserializeNetworkScopes (serializeNetworkScopes scopes) = scopes := by
  have lines := @readScopeLines_written
    (scopes.map fun scope => [scope.host, scope.scheme, scope.pathPrefix]) (by simp)
  rw [List.map_map] at lines
  rw [deserializeNetworkScopes, serializeNetworkScopes]
  simp only [Function.comp_def] at lines
  rw [lines, List.map_map]
  simp [Function.comp_def]

end ScopeRoundTrip

section HeaderRoundTrip

/-- A line that ends where no separator begins is passed over. -/
theorem cutAtText_line {line next : List Char} (oneLine : '\n' ∉ line) (plain : next.head? ≠ some '-') :
    cutAtText metaSeparator (line ++ '\n' :: next) =
      (cutAtText metaSeparator next).map fun parts => (line ++ '\n' :: parts.1, parts.2) := by
  have separator : metaSeparator = ['\n', '-', '-', '-', '\n'] := rfl
  induction line with
  | nil =>
      have elsewhere : metaSeparator.isPrefixOf ('\n' :: next) = false := by
        cases next with
        | nil => rfl
        | cons letter rest =>
            have notDash : ('-' == letter) = false := by
              simp only [List.head?_cons, ne_eq, Option.some.injEq] at plain
              exact beq_false_of_ne (Ne.symm plain)
            simp only [separator, List.isPrefixOf, notDash, Bool.false_and, Bool.and_false]
      simp [cutAtText, elsewhere]
  | cons letter line ih =>
      simp only [List.mem_cons, not_or] at oneLine
      have elsewhere : metaSeparator.isPrefixOf (letter :: (line ++ '\n' :: next)) = false := by
        have notBreak : ('\n' == letter) = false := by simpa using oneLine.1
        simp only [separator, List.isPrefixOf, notBreak, Bool.false_and]
      simp [cutAtText, elsewhere, ih oneLine.2, Function.comp_def]

/-- The header ends where the separator was written. -/
theorem cutAtText_written {lines : List (List Char)} (script : List Char)
    (plain : ∀ line ∈ lines, '\n' ∉ line ∧ line ≠ [] ∧ line.head? ≠ some '-') :
    cutAtText metaSeparator ((lines.flatMap fun line => line ++ ['\n']) ++ (metaSeparator ++ script)) =
      some (lines.flatMap fun line => line ++ ['\n'], script) := by
  induction lines with
  | nil =>
      have separator : metaSeparator ++ script = '\n' :: ("---\n".toList ++ script) := rfl
      have here : metaSeparator.isPrefixOf ('\n' :: ("---\n".toList ++ script)) = true := rfl
      simp only [List.flatMap_nil, List.nil_append]
      rw [separator, cutAtText, if_pos here]
      rfl
  | cons line lines ih =>
      obtain ⟨oneLine, _, _⟩ := plain line List.mem_cons_self
      have rest := ih fun other member => plain other (List.mem_cons_of_mem _ member)
      have next : ((lines.flatMap fun line => line ++ ['\n']) ++ (metaSeparator ++ script)).head? ≠
          some '-' := by
        cases lines with
        | nil => simp [metaSeparator]
        | cons other others =>
            obtain ⟨_, present, notDash⟩ := plain other (by simp)
            cases other with
            | nil => exact absurd rfl present
            | cons letter letters => simpa using notDash
      have whole : (((line :: lines).flatMap fun line => line ++ ['\n']) ++ (metaSeparator ++ script)) =
          line ++ '\n' :: ((lines.flatMap fun line => line ++ ['\n']) ++ (metaSeparator ++ script)) := by
        simp
      rw [whole, cutAtText_line oneLine next, rest]
      simp

theorem headerLines_plain (record : RegistryRecord) :
    ∀ line ∈ headerLines record, '\n' ∉ line ∧ line ≠ [] ∧ line.head? ≠ some '-' := by
  intro line member
  have shape : ∃ field value, line = fieldLine field value ∧ isAscii field = true ∧ '\n' ∉ field.toList ∧
      field.toList ≠ [] ∧ field.toList.head? ≠ some '-' := by
    simp only [headerLines, List.mem_cons, List.not_mem_nil, or_false] at member
    rcases member with rfl | rfl | rfl | rfl | rfl | rfl | rfl | rfl | rfl | rfl | rfl | rfl | rfl | rfl | rfl |
      rfl
    all_goals exact ⟨_, _, rfl, by decide, by decide, by decide, by decide⟩
  obtain ⟨field, value, rfl, ascii, oneLine, present, notDash⟩ := shape
  refine ⟨newline_not_mem_fieldLine ascii oneLine value, by simp [fieldLine], ?_⟩
  have letters : (text field : List Char) = field.toList := by
    simp only [text]
    exact List.map_id field.toList
  rw [fieldLine, letters]
  cases named : field.toList with
  | nil => exact absurd named present
  | cons letter others =>
      rw [named] at notDash
      simpa using notDash

theorem flagOfText_flagText (flag : Bool) : flagOfText (flagText flag) = some flag := by
  cases flag with
  | true => rfl
  | false => rfl

theorem readRecordLine_fieldLine {field : String} (ascii : isAscii field = true)
    (plain : '=' ∉ field.toList) (record : RegistryRecord) (value : List Char) :
    readRecordLine record (fieldLine field value) = readField record (text field) value := by
  simp only [readRecordLine, cutAt_fieldLine ascii plain, unescape_escape]

/-- A line that sets a field, whatever was read before. -/
theorem foldlM_field {field : String} (ascii : isAscii field = true) (plain : '=' ∉ field.toList)
    {record next : RegistryRecord} {value : List Char} {lines : List (List Char)}
    (set : readField record (text field) value = some next) :
    (fieldLine field value :: lines).foldlM readRecordLine record = lines.foldlM readRecordLine next := by
  rw [List.foldlM_cons, readRecordLine_fieldLine ascii plain, set]
  rfl

/-- Every field comes back as it was written, the lists without their empty lines. -/
theorem foldlM_readRecordLine (name : String) (record : RegistryRecord) :
    (headerLines record).foldlM readRecordLine { name := name, script := record.script } =
      some { record with
        name := name
        originPath := pathOfText (pathText record.originPath)
        capabilities := splitLines (joinLines record.capabilities)
        ecosystemScopes := splitLines (joinLines record.ecosystemScopes) } := by
  rw [headerLines]
  iterate 16
    rw [foldlM_field (by decide) (by decide) (by
      simp (disch := decide) only [readField, text_eq_text, String.reduceEq, ↓reduceIte,
        flagOfText_flagText, Option.map_some]
      rfl)]
  simp only [List.foldlM_nil, Option.pure_def, deserialize_writeScopes, deserialize_networkScopes,
    String.ofList_toList]

/-- What is read back of a record that was written. -/
theorem deserialize_serialize (name : String) (record : RegistryRecord) :
    deserializeRecord name (serializeRecord record) =
      (restoredRecord { record with name := name }).map fun restored =>
        { restored with originPath := pathOfText (pathText record.originPath) } := by
  have lines := headerLines_plain record
  have header := pieces_terminated fun line member => (lines line member).1
  rw [deserializeRecord, serializeRecord, cutAtText_written record.script.toList lines]
  simp only [Option.bind_eq_bind, Option.bind_some, header, String.ofList_toList, foldlM_readRecordLine]
  rw [restoredRecord]
  have plugin : canMaterializePlugin
      { record with
        name := name
        originPath := pathOfText (pathText record.originPath)
        capabilities := splitLines (joinLines record.capabilities)
        ecosystemScopes := splitLines (joinLines record.ecosystemScopes) } =
      canMaterializePlugin { record with name := name } := rfl
  rw [plugin]
  split
  · rfl
  · split <;> rfl

/-- Any text comes back from its parts. -/
theorem pathText_pathOfText (path : String) : pathText (pathOfText path) = path := by
  by_cases empty : path.isEmpty = true
  · rw [pathOfText, if_pos empty, String.isEmpty_iff.mp empty]
    rfl
  · rw [pathOfText, if_neg empty, pathText, List.map_map]
    have letters : String.toList ∘ String.ofList = id := funext fun _ => String.toList_ofList
    rw [letters, List.map_id, List.intercalate_splitOn, String.ofList_toList]

end HeaderRoundTrip

end ReqPack.Registry
