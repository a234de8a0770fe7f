import ReqPack.Rqp.Metadata

/-! # Metadata that is written and read again -/

namespace ReqPack.Rqp

open ReqPack.Data
open ReqPack.Data.Ascii

/-! ## Numbers -/

section Numbers

/-- A decimal number, its sign aside. -/
theorem toDecimal_parts (value : Nat) :
    (toDecimal value).head? ≠ some 45 ∧ (toDecimal value).head? ≠ some 43 ∧
      (toDecimal value).dropWhile isSpace = toDecimal value ∧
      (toDecimal value).takeWhile isDigit = toDecimal value ∧ (toDecimal value).dropWhile isDigit = [] := by
  have digits : ∀ c ∈ toDecimal value, isDigit c = true := fun _ => isDigit_of_mem_toDecimal
  obtain ⟨first, rest, shape⟩ := List.exists_cons_of_ne_nil (toDecimal_ne_nil value)
  have leading : isDigit first = true := digits first (by simp [shape])
  have blanks : (toDecimal value).dropWhile isSpace = toDecimal value := by
    rw [shape, List.dropWhile_cons_of_neg (by simp [isDigit_not_isSpace leading])]
  refine ⟨?_, ?_, blanks, List.takeWhile_eq_self_iff.mpr digits, List.dropWhile_eq_nil_iff.mpr digits⟩
  · rw [shape]
    rintro ⟨⟩
    exact absurd leading (by decide)
  · rw [shape]
    rintro ⟨⟩
    exact absurd leading (by decide)

theorem readInt_intText {value : Int} (low : -2 ^ 31 ≤ value) (high : value < 2 ^ 31) :
    readInt (intText value) = some value := by
  obtain ⟨minus, plus, blanks, digits, rest⟩ := toDecimal_parts value.natAbs
  have range : ¬ (value < -2 ^ 31 ∨ 2 ^ 31 ≤ value) := by omega
  rw [intText]
  split
  · rename_i negative
    have signed : (45 :: toDecimal value.natAbs : Bytes).dropWhile isSpace = 45 :: toDecimal value.natAbs := by
      rw [List.dropWhile_cons_of_neg (by decide)]
    have same : -(value.natAbs : Int) = value := by omega
    simp only [readInt, signed, List.head?_cons, List.tail_cons, digits, rest, decimalValue_toDecimal,
      beq_self_eq_true, Bool.true_or, if_true, same, List.all_nil, Bool.not_true, Bool.or_false,
      List.isEmpty_eq_false_iff.mpr (toDecimal_ne_nil value.natAbs), Bool.false_eq_true, if_false, range]
  · rename_i positive
    have same : (value.natAbs : Int) = value := by omega
    simp only [readInt, blanks, beq_eq_false_iff_ne.mpr minus, beq_eq_false_iff_ne.mpr plus, Bool.or_false,
      Bool.false_eq_true, if_false, digits, rest, decimalValue_toDecimal, same, List.all_nil, Bool.not_true,
      List.isEmpty_eq_false_iff.mpr (toDecimal_ne_nil value.natAbs), range]

theorem readInt_range {text : Bytes} {value : Int} (read : readInt text = some value) :
    -2 ^ 31 ≤ value ∧ value < 2 ^ 31 := by
  simp only [readInt, Option.ite_none_left_eq_some, Option.some.injEq] at read
  obtain ⟨_, range, same⟩ := read
  rw [same] at range
  omega

theorem readUint64_toDecimal {value : Nat} (fits : value < 2 ^ 64) : readUint64 (toDecimal value) = some value := by
  obtain ⟨minus, plus, blanks, digits, rest⟩ := toDecimal_parts value
  have whole : readUnsigned (toDecimal value) = some (value, []) := by
    simp only [readUnsigned, blanks, beq_eq_false_iff_ne.mpr minus, beq_eq_false_iff_ne.mpr plus, Bool.or_false,
      Bool.false_eq_true, if_false, digits, rest, decimalValue_toDecimal,
      List.isEmpty_eq_false_iff.mpr (toDecimal_ne_nil value), Bool.false_or, decide_eq_true_eq, Nat.not_le.mpr fits]
  rw [readUint64, whole]
  rfl

theorem readUint64_range {text : Bytes} {value : Nat} (read : readUint64 text = some value) : value < 2 ^ 64 := by
  obtain ⟨⟨number, rest⟩, unsigned, kept⟩ := Option.bind_eq_some_iff.mp read
  simp only [Option.ite_none_right_eq_some, Option.some.injEq] at kept
  rw [← kept.2]
  simp only [readUnsigned, Option.ite_none_left_eq_some, Option.some.injEq, Prod.mk.injEq, Bool.or_eq_true,
    decide_eq_true_eq, not_or, Nat.not_le] at unsigned
  obtain ⟨⟨_, range⟩, same, _⟩ := unsigned
  rw [← same]
  split
  · exact Nat.mod_lt _ (by decide)
  · exact range

end Numbers

/-! ## Normal forms -/

section Normal

theorem trimSpaces_toLowerCopy (value : Bytes) : trimSpaces (toLowerCopy value) = toLowerCopy (trimSpaces value) := by
  have spaces : (isSpace ∘ toLower) = isSpace := funext isSpace_toLower
  simp only [trimSpaces, toLowerCopy, List.rdropWhile, List.dropWhile_map, spaces, ← List.map_reverse]

theorem normalize_idem (value : Bytes) :
    toLowerCopy (trimSpaces (toLowerCopy (trimSpaces value))) = toLowerCopy (trimSpaces value) := by
  rw [trimSpaces_toLowerCopy, toLowerCopy_idem, trimSpaces, trimSpaces, trim_idem]

theorem rqNormalizeArchitecture_idem (architecture : Bytes) :
    rqNormalizeArchitecture (rqNormalizeArchitecture architecture) = rqNormalizeArchitecture architecture := by
  by_cases empty : (toLowerCopy (trimSpaces architecture)).isEmpty = true
  · simp only [rqNormalizeArchitecture, empty, if_true]
    rfl
  · simp only [rqNormalizeArchitecture, empty, Bool.false_eq_true, if_false, normalize_idem]

/-! ### Systems -/

theorem bytes_total : Std.Total fun left right : Bytes => left ≤ right := ⟨List.le_total⟩

theorem bytes_trans : IsTrans Bytes fun left right => left ≤ right := ⟨fun _ _ _ => Std.le_trans⟩

/-- Sorted names of which no neighbours are the same. -/
theorem strictly_sorted {names : List Bytes} (sorted : names.Pairwise fun left right => left ≤ right)
    (apart : names.IsChain fun left right => left ≠ right) : names.Pairwise fun left right => left < right := by
  have chain : names.IsChain fun left right => left < right := by
    induction names with
    | nil => exact List.IsChain.nil
    | cons first names ih =>
        cases names with
        | nil => exact List.IsChain.singleton first
        | cons second names =>
            rw [List.isChain_cons_cons] at apart ⊢
            rw [List.pairwise_cons] at sorted
            exact ⟨Std.lt_of_le_of_ne (sorted.1 second List.mem_cons_self) apart.1, ih sorted.2 apart.2⟩
  have transitive : Trans (fun left right : Bytes => left < right) (fun left right => left < right)
      fun left right => left < right := ⟨List.lt_trans⟩
  exact chain.pairwise

/-- A list of names in normal form. -/
structure NormalNames (names : List Bytes) : Prop where
  sorted : names.Pairwise fun left right => left < right
  each : ∀ name ∈ names, toLowerCopy (trimSpaces name) = name ∧ name.isEmpty = false

theorem normalizeStringValues_normal (values : List Bytes) : NormalNames (normalizeStringValues values) := by
  have total := bytes_total
  have trans := bytes_trans
  have members : ∀ name ∈ normalizeStringValues values,
      name ∈ (values.map fun value => toLowerCopy (trimSpaces value)).filter fun value => !value.isEmpty := by
    intro name member
    exact (List.mem_insertionSort _).mp ((List.destutter_sublist _ _).subset member)
  constructor
  · have sorted : (normalizeStringValues values).Pairwise fun left right => left ≤ right :=
      (List.pairwise_insertionSort _ _).sublist (List.destutter_sublist _ _)
    have apart : (normalizeStringValues values).IsChain fun left right => left ≠ right :=
      List.isChain_destutter _ _
    exact strictly_sorted sorted apart
  · intro name member
    have kept := List.mem_filter.mp (members name member)
    obtain ⟨value, _, same⟩ := List.mem_map.mp kept.1
    refine ⟨?_, by simpa using kept.2⟩
    rw [← same, normalize_idem]

theorem normalizeStringValues_of_normal {names : List Bytes} (normal : NormalNames names) :
    normalizeStringValues names = names := by
  have total := bytes_total
  have trans := bytes_trans
  have lowered : (names.map fun value => toLowerCopy (trimSpaces value)) = names := by
    rw [List.map_congr_left fun name member => (normal.each name member).1, List.map_id']
  have filled : (names.filter fun value => !value.isEmpty) = names :=
    List.filter_eq_self.mpr fun name member => by simp [(normal.each name member).2]
  have sorted : names.insertionSort (· ≤ ·) = names :=
    (normal.sorted.imp fun less => Std.le_of_lt less).insertionSort_eq
  rw [normalizeStringValues, lowered, filled, sorted]
  exact List.destutter_of_isChain _ _ (normal.sorted.isChain.imp fun _ _ => Std.ne_of_lt)

theorem rqNormalizeSystems_idem (systems : List Bytes) :
    rqNormalizeSystems (rqNormalizeSystems systems) = rqNormalizeSystems systems := by
  have normal := normalizeStringValues_of_normal (normalizeStringValues_normal systems)
  by_cases empty : (normalizeStringValues systems).isEmpty = true
  · simp only [rqNormalizeSystems, empty, if_true]
    rfl
  · simp only [rqNormalizeSystems, empty, Bool.false_eq_true, if_false, normal]

theorem rqNormalizeSystems_ne_nil (systems : List Bytes) : rqNormalizeSystems systems ≠ [] := by
  by_cases empty : (normalizeStringValues systems).isEmpty = true
  · simp [rqNormalizeSystems, empty]
  · rw [rqNormalizeSystems]
    simp only [empty, Bool.false_eq_true, if_false]
    simpa using empty

end Normal

/-! ## What the reader accepts -/

section Accepted

variable {tree : Ptree} {key : String}

structure AcceptedPayload (payload : RqPayloadMetadata) : Prop where
  path : payload.path.isEmpty = false
  archive : payload.archive.isEmpty = false
  compression : payload.compression.isEmpty = false
  hashAlgorithm : payload.hashAlgorithm.isEmpty = false
  hashFile : payload.hashFile.isEmpty = false
  sizeCompressed : payload.sizeCompressed < 2 ^ 64
  sizeInstalledExpected : payload.sizeInstalledExpected < 2 ^ 64

/-- What holds of all metadata that was read. -/
structure Accepted (metadata : RqMetadata) : Prop where
  formatVersion : metadata.formatVersion = 1
  name : metadata.name.isEmpty = false
  version : metadata.version.isEmpty = false
  release : -2 ^ 31 ≤ metadata.release ∧ metadata.release < 2 ^ 31
  revision : -2 ^ 31 ≤ metadata.revision ∧ metadata.revision < 2 ^ 31
  summary : metadata.summary.isEmpty = false
  description : metadata.description.isEmpty = false
  license : metadata.license.isEmpty = false
  architecture : rqNormalizeArchitecture metadata.architecture = metadata.architecture
  systems : rqNormalizeSystems metadata.systems = metadata.systems
  vendor : metadata.vendor.isEmpty = false
  maintainerEmail : metadata.maintainerEmail.isEmpty = false
  url : metadata.url.isEmpty = false
  payload : ∀ payload ∈ metadata.payload, AcceptedPayload payload

theorem bind_ok {ε α β : Type} {first : Except ε α} {next : α → Except ε β} {result : β} :
    (first >>= next) = .ok result ↔ ∃ value, first = .ok value ∧ next value = .ok result := by
  cases first with
  | error error =>
      constructor
      · intro failed
        cases failed
      · intro ⟨_, failed, _⟩
        cases failed
  | ok value =>
      constructor
      · intro done
        exact ⟨value, rfl, done⟩
      · intro ⟨_, same, done⟩
        cases same
        exact done

theorem requiredString_nonempty {value : Bytes} (read : requiredString tree key = .ok value) :
    value.isEmpty = false := by
  rw [requiredString] at read
  split at read
  · split at read
    · cases read
    · rename_i filled
      cases read
      simpa using filled
  · cases read

theorem requiredInt_range {value : Int} (read : requiredInt tree key = .ok value) :
    -2 ^ 31 ≤ value ∧ value < 2 ^ 31 := by
  rw [requiredInt] at read
  split at read
  · rename_i number found
    cases read
    obtain ⟨text, _, parsed⟩ := Option.bind_eq_some_iff.mp found
    exact readInt_range parsed
  · cases read

theorem size_range (text : Option Bytes) : ((text.bind readUint64).getD 0) < 2 ^ 64 := by
  cases read : text.bind readUint64 with
  | none => decide
  | some value =>
      obtain ⟨_, _, parsed⟩ := Option.bind_eq_some_iff.mp read
      exact readUint64_range parsed

theorem parsePayload_accepted {payload : RqPayloadMetadata} (parsed : parsePayload tree = .ok payload) :
    AcceptedPayload payload := by
  simp only [parsePayload, bind_ok] at parsed
  obtain ⟨path, pathRead, archive, archiveRead, compression, compressionRead, hashAlgorithm, hashAlgorithmRead,
    hashFile, hashFileRead, same⟩ := parsed
  cases same
  exact ⟨requiredString_nonempty pathRead, requiredString_nonempty archiveRead,
    requiredString_nonempty compressionRead, requiredString_nonempty hashAlgorithmRead,
    requiredString_nonempty hashFileRead, size_range _, size_range _⟩

theorem parseMetadataTree_accepted {metadata : RqMetadata} (parsed : parseMetadataTree tree = .ok metadata) :
    Accepted metadata := by
  simp only [parseMetadataTree, bind_ok] at parsed
  obtain ⟨formatVersion, formatVersionRead, name, nameRead, version, versionRead, release, releaseRead, revision,
    revisionRead, summary, summaryRead, description, descriptionRead, license, licenseRead, systems, systemsRead,
    vendor, vendorRead, maintainerEmail, maintainerEmailRead, url, urlRead, _, supported, payload, payloadRead,
    same⟩ := parsed
  have one : formatVersion = 1 := by
    rw [requireFormatVersion] at supported
    split at supported
    · cases supported
    · rename_i kept
      exact not_not.mp kept
  cases same
  refine ⟨one, requiredString_nonempty nameRead, requiredString_nonempty versionRead, requiredInt_range releaseRead,
    requiredInt_range revisionRead, requiredString_nonempty summaryRead, requiredString_nonempty descriptionRead,
    requiredString_nonempty licenseRead, rqNormalizeArchitecture_idem _, rqNormalizeSystems_idem _,
    requiredString_nonempty vendorRead, requiredString_nonempty maintainerEmailRead, requiredString_nonempty urlRead,
    ?_⟩
  intro found present
  rw [parseOptionalPayload] at payloadRead
  split at payloadRead
  · cases payloadRead
    cases present
  · rename_i node under
    cases read : parsePayload node with
    | error message =>
        rw [read] at payloadRead
        cases payloadRead
    | ok value =>
        rw [read] at payloadRead
        cases payloadRead
        cases present
        exact parsePayload_accepted read

end Accepted

/-! ## Reading a document -/

section Documents

variable {metadata : RqMetadata}

theorem child_object (fields : List (String × Json)) (key : String) :
    (Json.object fields).tree.child key = (fields.lookup key).map Json.tree := by
  have looked : ∀ fields : List (String × Json),
      (Json.tree.fieldTrees fields).lookup key = (fields.lookup key).map Json.tree := by
    intro fields
    induction fields with
    | nil => rfl
    | cons field fields ih =>
        obtain ⟨name, value⟩ := field
        rw [Json.tree.fieldTrees, List.lookup_cons, List.lookup_cons, ih]
        split <;> rfl
  exact looked fields

/-- A key that stands in one place is found there or was left out. -/
theorem lookup_present {fields : List (String × Option Json)} (distinct : (fields.map Prod.fst).Nodup)
    (key : String) :
    (fields.filterMap fun field => field.2.map fun value => (field.1, value)).lookup key =
      (fields.lookup key).join := by
  induction fields with
  | nil => rfl
  | cons field fields ih =>
      obtain ⟨name, value⟩ := field
      rw [List.map_cons, List.nodup_cons] at distinct
      rw [List.lookup_cons, List.filterMap_cons]
      cases value with
      | some value =>
          simp only [Option.map_some, List.lookup_cons]
          split
          · rfl
          · exact ih distinct.2
      | none =>
          simp only [Option.map_none]
          split
          · rename_i same
            rw [beq_iff_eq] at same
            subst same
            rw [ih distinct.2, Option.join_some]
            have absent : fields.lookup key = none := by
              rw [List.lookup_eq_none_iff]
              intro other member
              rw [bne_iff_ne]
              rintro rfl
              exact distinct.1 (List.mem_map.mpr ⟨other, member, rfl⟩)
            rw [absent]
            rfl
          · exact ih distinct.2

theorem metadataFields_distinct (metadata : RqMetadata) : ((metadataFields metadata).map Prod.fst).Nodup := by
  simp only [metadataFields, List.map_cons, List.map_nil]
  decide

theorem child_metadata (metadata : RqMetadata) (key : String) :
    (metadataDocument metadata).tree.child key = ((metadataFields metadata).lookup key).join.map Json.tree := by
  rw [metadataDocument, child_object, lookup_present (metadataFields_distinct metadata)]

theorem text_metadata {key : String} {value : Bytes} (written : (metadataFields metadata).lookup key = some (some (.text value))) :
    (metadataDocument metadata).tree.text key = some value := by
  rw [Ptree.text, child_metadata, written]
  rfl

theorem optionalText_metadata (key : String) {value : Bytes}
    (written : (metadataFields metadata).lookup key = some (optionalText value)) :
    ((metadataDocument metadata).tree.text key).getD [] = value := by
  rw [Ptree.text, child_metadata, written, optionalText]
  cases value with
  | nil => rfl
  | cons c value => rfl

theorem itemTrees_texts (values : List Bytes) :
    (Json.tree.itemTrees (values.map Json.text)).map (fun child => child.2.data) = values := by
  induction values with
  | nil => rfl
  | cons value values ih => rw [List.map_cons, Json.tree.itemTrees, List.map_cons, ih]; rfl

theorem optionalTexts_metadata (key : String) {values : List Bytes}
    (written : (metadataFields metadata).lookup key = some (optionalTexts values)) :
    loadStringArray ((metadataDocument metadata).tree.child key) = values := by
  rw [child_metadata, written, optionalTexts]
  cases values with
  | nil => rfl
  | cons value values => exact itemTrees_texts (value :: values)

theorem requiredString_metadata (key : String) {value : Bytes} (filled : value.isEmpty = false)
    (written : (metadataFields metadata).lookup key = some (some (.text value))) :
    requiredString (metadataDocument metadata).tree key = .ok value := by
  rw [requiredString, text_metadata written]
  simp only [filled, Bool.false_eq_true, if_false]

theorem requiredInt_metadata (key : String) {value : Int} (range : -2 ^ 31 ≤ value ∧ value < 2 ^ 31)
    (written : (metadataFields metadata).lookup key = some (some (.number (intText value)))) :
    requiredInt (metadataDocument metadata).tree key = .ok value := by
  have stored : (metadataDocument metadata).tree.text key = some (intText value) := by
    rw [Ptree.text, child_metadata, written]
    rfl
  rw [requiredInt, stored, Option.bind_some, readInt_intText range.1 range.2]

theorem mapM_itemTrees (values : List Bytes) (message : Bytes) :
    ((Json.tree.itemTrees (values.map Json.text)).mapM fun child =>
      if child.1 = "" then Except.ok child.2.data else Except.error message) = .ok values := by
  induction values with
  | nil => rfl
  | cons value values ih =>
      rw [List.map_cons, Json.tree.itemTrees, List.mapM_cons, ih]
      rfl

theorem systems_metadata (normal : rqNormalizeSystems metadata.systems = metadata.systems) :
    parseStringOrArrayField (metadataDocument metadata).tree "system" = .ok metadata.systems := by
  have written : (metadataFields metadata).lookup "system" =
      some (some (.array ((rqNormalizeSystems metadata.systems).map .text))) := rfl
  have present : metadata.systems ≠ [] := by
    rw [← normal]
    exact rqNormalizeSystems_ne_nil _
  obtain ⟨first, rest, shape⟩ := List.exists_cons_of_ne_nil present
  rw [parseStringOrArrayField, child_metadata, written, normal]
  have filled : (Json.array (metadata.systems.map Json.text)).tree.children.isEmpty = false := by
    rw [shape]
    rfl
  simp only [Option.join_some, Option.map_some, filled, Bool.false_eq_true, if_false]
  exact mapM_itemTrees _ _

theorem parsePayload_document {payload : RqPayloadMetadata} (accepted : AcceptedPayload payload) :
    parsePayload (payloadDocument payload).tree = .ok payload := by
  have texts (key : String) {value : Bytes} (filled : value.isEmpty = false)
      (stored : (payloadDocument payload).tree.text key = some value) :
      requiredString (payloadDocument payload).tree key = .ok value := by
    rw [requiredString, stored]
    simp only [filled, Bool.false_eq_true, if_false]
  have compressed : (payloadDocument payload).tree.text "sizeCompressed" = some (toDecimal payload.sizeCompressed) :=
    rfl
  have installed : (payloadDocument payload).tree.text "sizeInstalledExpected" =
      some (toDecimal payload.sizeInstalledExpected) := rfl
  simp only [parsePayload, texts "path" accepted.path rfl, texts "archive" accepted.archive rfl,
    texts "compression" accepted.compression rfl, texts "hashAlgorithm" accepted.hashAlgorithm rfl,
    texts "hashFile" accepted.hashFile rfl, compressed, installed, Option.bind_some,
    readUint64_toDecimal accepted.sizeCompressed, readUint64_toDecimal accepted.sizeInstalledExpected,
    Option.getD_some, bind, Except.bind, pure, Except.pure]

theorem payload_metadata (accepted : ∀ payload ∈ metadata.payload, AcceptedPayload payload) :
    parseOptionalPayload (metadataDocument metadata).tree = .ok metadata.payload := by
  have written : (metadataFields metadata).lookup "payload" = some (metadata.payload.map payloadDocument) := rfl
  rw [parseOptionalPayload, child_metadata, written]
  cases stored : metadata.payload with
  | none => rfl
  | some payload =>
      simp only [Option.map_some, Option.join_some, parsePayload_document (accepted payload stored)]
      rfl

/-- Everything but the binaries is read back. -/
theorem parse_metadataDocument (accepted : Accepted metadata) :
    parseMetadataTree (metadataDocument metadata).tree = .ok { metadata with binaries := [] } := by
  have version : -2 ^ 31 ≤ metadata.formatVersion ∧ metadata.formatVersion < 2 ^ 31 := by
    rw [accepted.formatVersion]
    decide
  have supported : requireFormatVersion metadata.formatVersion = .ok () := by
    rw [accepted.formatVersion]
    rfl
  have architecture : rqNormalizeArchitecture (((metadataDocument metadata).tree.text "architecture").getD []) =
      metadata.architecture := by
    have written : (metadataFields metadata).lookup "architecture" =
        some (some (.text (rqNormalizeArchitecture metadata.architecture))) := rfl
    rw [text_metadata written, Option.getD_some, accepted.architecture, accepted.architecture]
  have binaries : (metadataDocument metadata).tree.child "binaries" = none := by
    have written : (metadataFields metadata).lookup "binaries" = none := rfl
    rw [child_metadata, written]
    rfl
  simp only [parseMetadataTree, requiredInt_metadata "formatVersion" version rfl,
    requiredString_metadata "name" accepted.name rfl, requiredString_metadata "version" accepted.version rfl,
    requiredInt_metadata "release" accepted.release rfl, requiredInt_metadata "revision" accepted.revision rfl,
    requiredString_metadata "summary" accepted.summary rfl,
    requiredString_metadata "description" accepted.description rfl,
    requiredString_metadata "license" accepted.license rfl, systems_metadata accepted.systems,
    requiredString_metadata "vendor" accepted.vendor rfl,
    requiredString_metadata "maintainerEmail" accepted.maintainerEmail rfl,
    requiredString_metadata "url" accepted.url rfl, supported, payload_metadata accepted.payload, bind, Except.bind,
    pure, Except.pure, architecture, accepted.systems, binaries, loadBinaries,
    @optionalTexts_metadata metadata "tags" _ rfl, @optionalText_metadata metadata "homepage" _ rfl,
    @optionalText_metadata metadata "sourceUrl" _ rfl, @optionalText_metadata metadata "packager" _ rfl,
    @optionalText_metadata metadata "buildDate" _ rfl, @optionalTexts_metadata metadata "depends" _ rfl,
    @optionalTexts_metadata metadata "provides" _ rfl, @optionalTexts_metadata metadata "conflicts" _ rfl,
    @optionalTexts_metadata metadata "replaces" _ rfl]

end Documents

/-! ## The round trip -/

/-- The reader reads the text of the document as the document. -/
def ReadsJson (readTree : Bytes → Option Ptree) (escape : Bytes → Bytes) (document : Json) : Prop :=
  readTree (document.render escape [] ++ [newline]) = some document.tree

theorem accepted_of_parse {readTree : Bytes → Option Ptree} {content : Bytes} {metadata : RqMetadata}
    (parsed : rqParseMetadataJson readTree content = .ok metadata) : Accepted metadata := by
  rw [rqParseMetadataJson] at parsed
  split at parsed
  · cases parsed
  · exact parseMetadataTree_accepted parsed

/-- Accepted metadata is read back but for its binaries. -/
theorem parse_metadataJson {readTree : Bytes → Option Ptree} {escape : Bytes → Bytes} {metadata : RqMetadata}
    (accepted : Accepted metadata) (reads : ReadsJson readTree escape (metadataDocument metadata)) :
    rqParseMetadataJson readTree (rqMetadataJson escape metadata) = .ok { metadata with binaries := [] } := by
  rw [rqParseMetadataJson, rqMetadataJson, reads]
  exact parse_metadataDocument accepted

/-- Metadata that was read from any text is read back from the text it is written to,
exactly when it lists no binaries; these are lost. -/
theorem metadata_round_trip {readTree : Bytes → Option Ptree} {escape : Bytes → Bytes} {content : Bytes}
    {metadata : RqMetadata} (parsed : rqParseMetadataJson readTree content = .ok metadata)
    (reads : ReadsJson readTree escape (metadataDocument metadata)) :
    rqParseMetadataJson readTree (rqMetadataJson escape metadata) = .ok { metadata with binaries := [] } ∧
      (rqParseMetadataJson readTree (rqMetadataJson escape metadata) = .ok metadata ↔ metadata.binaries = []) := by
  have accepted : Accepted metadata := by
    rw [rqParseMetadataJson] at parsed
    split at parsed
    · cases parsed
    · exact parseMetadataTree_accepted parsed
  have again : rqParseMetadataJson readTree (rqMetadataJson escape metadata) =
      .ok { metadata with binaries := [] } := by
    rw [rqParseMetadataJson, rqMetadataJson, reads]
    exact parse_metadataDocument accepted
  refine ⟨again, ?_⟩
  rw [again]
  constructor
  · intro same
    rw [Except.ok.injEq] at same
    rw [← same]
  · intro none
    rw [← none]

/-! ### A tool with a binary -/

def richMetadata (binaries : List RqBinaryEntry) : RqMetadata where
  formatVersion := 1
  name := bytes "rich"
  version := bytes "1.0"
  release := 1
  revision := 0
  summary := bytes "summary"
  description := bytes "description"
  license := bytes "MIT"
  architecture := bytes "noarch"
  systems := [bytes "nosys"]
  vendor := bytes "vendor"
  maintainerEmail := bytes "dev@example.test"
  tags := [bytes "tool"]
  url := bytes "https://example.test"
  homepage := []
  sourceUrl := []
  packager := []
  buildDate := []
  binaries := binaries
  depends := [bytes "lib"]
  provides := []
  conflicts := []
  replaces := []
  payload := none

def richBinary : RqBinaryEntry := ⟨bytes "rich", bytes "/usr/bin/rich", true⟩

/-- The metadata of a project as its author writes it. -/
def richDocument : Json :=
  .object (((metadataFields (richMetadata [])).filterMap fun field => field.2.map fun value => (field.1, value)) ++
    [("binaries", .array [.object [("name", .text richBinary.name), ("installPath", .text richBinary.installPath),
      ("primary", .number (bytes "true"))]])])

/-- A reader of these two texts. -/
def richReader (metadata : RqMetadata) (text : Bytes) : Option Ptree :=
  if text = rqMetadataJson id metadata then some (metadataDocument metadata).tree
  else if text = richDocument.render id [] then some richDocument.tree
  else none

theorem richReader_reads (metadata : RqMetadata) :
    ReadsJson (richReader metadata) id (metadataDocument metadata) := by
  rw [ReadsJson, richReader]
  exact if_pos rfl

theorem metadata_round_trip_rich :
    rqParseMetadataJson (richReader (richMetadata [])) (rqMetadataJson id (richMetadata [])) =
      .ok (richMetadata []) := by
  have parsed : rqParseMetadataJson (richReader (richMetadata [])) (rqMetadataJson id (richMetadata [])) =
      .ok (richMetadata []) := by decide +kernel
  exact (metadata_round_trip parsed (richReader_reads _)).2.mpr rfl

theorem metadata_binaries_lost :
    rqParseMetadataJson (richReader (richMetadata [richBinary])) (richDocument.render id []) =
        .ok (richMetadata [richBinary]) ∧
      rqParseMetadataJson (richReader (richMetadata [richBinary])) (rqMetadataJson id (richMetadata [richBinary])) =
        .ok (richMetadata []) ∧
      richMetadata [richBinary] ≠ richMetadata [] := by
  decide +kernel

end ReqPack.Rqp
