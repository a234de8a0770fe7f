import Mathlib.Data.List.Destutter
import ReqPack.Rqp.Tar

/-! # Package metadata

`metadata.json` is read field by field from the tree of its JSON text and written field by
field again.  The reader of the JSON text and the escape of its strings are parameters.
-/

namespace ReqPack.Rqp

open ReqPack.Data
open ReqPack.Data.Ascii

/-! ## Trees and documents -/

/-- `boost::property_tree::ptree`: a text and children under keys; the elements of a JSON
array are children under empty keys. -/
inductive Ptree
  | node (data : Bytes) (children : List (String × Ptree))

def Ptree.data : Ptree → Bytes
  | .node data _ => data

def Ptree.children : Ptree → List (String × Ptree)
  | .node _ children => children

/-- `get_child_optional`: the first child under the key. -/
def Ptree.child (tree : Ptree) (key : String) : Option Ptree := tree.children.lookup key

/-- `get_optional<std::string>`. -/
def Ptree.text (tree : Ptree) (key : String) : Option Bytes := (tree.child key).map Ptree.data

inductive Json
  | text (value : Bytes)
  | number (digits : Bytes)
  | array (items : List Json)
  | object (fields : List (String × Json))

namespace Json

/-- The property tree of a JSON value. -/
def tree : Json → Ptree
  | .text value => .node value []
  | .number digits => .node digits []
  | .array items => .node [] (itemTrees items)
  | .object fields => .node [] (fieldTrees fields)
where
  itemTrees : List Json → List (String × Ptree)
    | [] => []
    | item :: items => ("", item.tree) :: itemTrees items
  fieldTrees : List (String × Json) → List (String × Ptree)
    | [] => []
    | (key, value) :: fields => (key, value.tree) :: fieldTrees fields

/-- The text of a JSON value: arrays in one line, the fields of an object each in a line
of its own. -/
def render (escape : Bytes → Bytes) (indent : Bytes) : Json → Bytes
  | .text value => doubleQuote :: (escape value ++ [doubleQuote])
  | .number digits => digits
  | .array items => bytes "[" ++ renderItems indent items ++ bytes "]"
  | .object fields => bytes "\x7b" ++ renderFields (indent ++ bytes "  ") fields ++ newline :: indent ++ bytes "\x7d"
where
  renderItems (indent : Bytes) : List Json → Bytes
    | [] => []
    | [item] => item.render escape indent
    | item :: items => item.render escape indent ++ bytes ", " ++ renderItems indent items
  renderFields (indent : Bytes) : List (String × Json) → Bytes
    | [] => []
    | [(key, value)] => renderField indent key (value.render escape indent)
    | (key, value) :: fields =>
        renderField indent key (value.render escape indent) ++ bytes "," ++ renderFields indent fields
  renderField (indent : Bytes) (key : String) (value : Bytes) : Bytes :=
    newline :: indent ++ doubleQuote :: bytes key ++ bytes "\": " ++ value

end Json

/-! ## Numbers -/

/-- `get_optional<int>` of a text: a decimal number with blanks around it. -/
def readInt (text : Bytes) : Option Int :=
  let trimmed := text.dropWhile isSpace
  let negative := trimmed.head? == some 45
  let unsigned := if negative || trimmed.head? == some 43 then trimmed.tail else trimmed
  let digits := unsigned.takeWhile isDigit
  let value : Int := if negative then -(decimalValue digits : Int) else decimalValue digits
  if digits.isEmpty || !(unsigned.dropWhile isDigit).all isSpace then none
  else if value < -2 ^ 31 ∨ 2 ^ 31 ≤ value then none
  else some value

/-- The same for `std::uint64_t`. -/
def readUint64 (text : Bytes) : Option Nat :=
  (readUnsigned text).bind fun parts => if parts.2.all isSpace then some parts.1 else none

/-- The same for `bool`, as a number or as a word. -/
def readBool (text : Bytes) : Option Bool :=
  match readInt text with
  | some 1 => some true
  | some 0 => some false
  | _ =>
      if trimSpaces text = bytes "true" then some true
      else if trimSpaces text = bytes "false" then some false
      else none

def intText (value : Int) : Bytes :=
  if value < 0 then 45 :: toDecimal value.natAbs else toDecimal value.natAbs

/-! ## Metadata -/

structure RqBinaryEntry where
  name : Bytes
  installPath : Bytes
  primary : Bool
deriving DecidableEq, Repr

structure RqPayloadMetadata where
  path : Bytes
  archive : Bytes
  compression : Bytes
  hashAlgorithm : Bytes
  hashFile : Bytes
  sizeCompressed : Nat
  sizeInstalledExpected : Nat
deriving DecidableEq, Repr

structure RqMetadata where
  formatVersion : Int
  name : Bytes
  version : Bytes
  release : Int
  revision : Int
  summary : Bytes
  description : Bytes
  license : Bytes
  architecture : Bytes
  systems : List Bytes
  vendor : Bytes
  maintainerEmail : Bytes
  tags : List Bytes
  url : Bytes
  homepage : Bytes
  sourceUrl : Bytes
  packager : Bytes
  buildDate : Bytes
  binaries : List RqBinaryEntry
  depends : List Bytes
  provides : List Bytes
  conflicts : List Bytes
  replaces : List Bytes
  payload : Option RqPayloadMetadata
deriving DecidableEq, Repr

def rqNormalizeArchitecture (architecture : Bytes) : Bytes :=
  let normalized := toLowerCopy (trimSpaces architecture)
  if normalized.isEmpty then bytes "noarch" else normalized

def normalizeStringValues (values : List Bytes) : List Bytes :=
  (((values.map fun value => toLowerCopy (trimSpaces value)).filter fun value => !value.isEmpty).insertionSort
    (· ≤ ·)).destutter (· ≠ ·)

def rqNormalizeSystems (systems : List Bytes) : List Bytes :=
  let normalized := normalizeStringValues systems
  if normalized.isEmpty then [bytes "nosys"] else normalized

/-! ## Reading -/

def parseStringOrArrayField (tree : Ptree) (key : String) : Except Bytes (List Bytes) :=
  match tree.child key with
  | none => .ok []
  | some node =>
      if node.children.isEmpty then .ok [node.data]
      else
        node.children.mapM fun child =>
          if child.1 = "" then .ok child.2.data
          else .error (bytes "metadata field must be string or array of strings: " ++ bytes key)

def requiredInt (tree : Ptree) (key : String) : Except Bytes Int :=
  match (tree.text key).bind readInt with
  | some value => .ok value
  | none => .error (bytes "metadata missing integer field: " ++ bytes key)

def requiredString (tree : Ptree) (key : String) : Except Bytes Bytes :=
  match tree.text key with
  | some value =>
      if value.isEmpty then .error (bytes "metadata missing string field: " ++ bytes key) else .ok value
  | none => .error (bytes "metadata missing string field: " ++ bytes key)

def loadStringArray (values : Option Ptree) : List Bytes :=
  match values with
  | none => []
  | some node => node.children.map fun child => child.2.data

def loadBinaries (values : Option Ptree) : List RqBinaryEntry :=
  match values with
  | none => []
  | some node => node.children.map fun child =>
      { name := (child.2.text "name").getD []
        installPath := (child.2.text "installPath").getD []
        primary := ((child.2.text "primary").bind readBool).getD false }

def parsePayload (tree : Ptree) : Except Bytes RqPayloadMetadata := do
  let path ← requiredString tree "path"
  let archive ← requiredString tree "archive"
  let compression ← requiredString tree "compression"
  let hashAlgorithm ← requiredString tree "hashAlgorithm"
  let hashFile ← requiredString tree "hashFile"
  return { path, archive, compression, hashAlgorithm, hashFile
           sizeCompressed := ((tree.text "sizeCompressed").bind readUint64).getD 0
           sizeInstalledExpected := ((tree.text "sizeInstalledExpected").bind readUint64).getD 0 }

def parseOptionalPayload (tree : Ptree) : Except Bytes (Option RqPayloadMetadata) :=
  match tree.child "payload" with
  | none => .ok none
  | some node => (parsePayload node).map some

def requireFormatVersion (formatVersion : Int) : Except Bytes Unit :=
  if formatVersion ≠ 1 then .error (bytes "unsupported rqp format version") else .ok ()

/-- The part of `parse_metadata_json_impl` behind the JSON reader. -/
def parseMetadataTree (tree : Ptree) : Except Bytes RqMetadata := do
  let formatVersion ← requiredInt tree "formatVersion"
  let name ← requiredString tree "name"
  let version ← requiredString tree "version"
  let release ← requiredInt tree "release"
  let revision ← requiredInt tree "revision"
  let summary ← requiredString tree "summary"
  let description ← requiredString tree "description"
  let license ← requiredString tree "license"
  let systems ← parseStringOrArrayField tree "system"
  let vendor ← requiredString tree "vendor"
  let maintainerEmail ← requiredString tree "maintainerEmail"
  let url ← requiredString tree "url"
  requireFormatVersion formatVersion
  let payload ← parseOptionalPayload tree
  return { formatVersion, name, version, release, revision, summary, description, license
           architecture := rqNormalizeArchitecture ((tree.text "architecture").getD [])
           systems := rqNormalizeSystems systems
           vendor, maintainerEmail
           tags := loadStringArray (tree.child "tags")
           url
           homepage := (tree.text "homepage").getD []
           sourceUrl := (tree.text "sourceUrl").getD []
           packager := (tree.text "packager").getD []
           buildDate := (tree.text "buildDate").getD []
           binaries := loadBinaries (tree.child "binaries")
           depends := loadStringArray (tree.child "depends")
           provides := loadStringArray (tree.child "provides")
           conflicts := loadStringArray (tree.child "conflicts")
           replaces := loadStringArray (tree.child "replaces")
           payload }

def rqParseMetadataJson (readTree : Bytes → Option Ptree) (content : Bytes) : Except Bytes RqMetadata :=
  match readTree content with
  | none => .error (bytes "invalid metadata json")
  | some tree => parseMetadataTree tree

/-! ## Writing -/

/-- A field that is written when there is something in it. -/
def optionalText (value : Bytes) : Option Json := if value.isEmpty then none else some (.text value)

def optionalTexts (values : List Bytes) : Option Json :=
  if values.isEmpty then none else some (.array (values.map .text))

def payloadDocument (payload : RqPayloadMetadata) : Json :=
  .object
    [("path", .text payload.path), ("archive", .text payload.archive), ("compression", .text payload.compression),
      ("hashAlgorithm", .text payload.hashAlgorithm), ("hashFile", .text payload.hashFile),
      ("sizeCompressed", .number (toDecimal payload.sizeCompressed)),
      ("sizeInstalledExpected", .number (toDecimal payload.sizeInstalledExpected))]

def metadataFields (metadata : RqMetadata) : List (String × Option Json) :=
  [("formatVersion", some (.number (intText metadata.formatVersion))),
    ("name", some (.text metadata.name)),
    ("version", some (.text metadata.version)),
    ("release", some (.number (intText metadata.release))),
    ("revision", some (.number (intText metadata.revision))),
    ("summary", some (.text metadata.summary)),
    ("description", some (.text metadata.description)),
    ("license", some (.text metadata.license)),
    ("architecture", some (.text (rqNormalizeArchitecture metadata.architecture))),
    ("system", some (.array ((rqNormalizeSystems metadata.systems).map .text))),
    ("vendor", some (.text metadata.vendor)),
    ("maintainerEmail", some (.text metadata.maintainerEmail)),
    ("url", some (.text metadata.url)),
    ("tags", optionalTexts metadata.tags),
    ("homepage", optionalText metadata.homepage),
    ("sourceUrl", optionalText metadata.sourceUrl),
    ("packager", optionalText metadata.packager),
    ("buildDate", optionalText metadata.buildDate),
    ("depends", optionalTexts metadata.depends),
    ("provides", optionalTexts metadata.provides),
    ("conflicts", optionalTexts metadata.conflicts),
    ("replaces", optionalTexts metadata.replaces),
    ("payload", metadata.payload.map payloadDocument)]

/-- The document `metadata_json_impl` writes, field by field. -/
def metadataDocument (metadata : RqMetadata) : Json :=
  .object ((metadataFields metadata).filterMap fun field => field.2.map fun value => (field.1, value))

def rqMetadataJson (escape : Bytes → Bytes) (metadata : RqMetadata) : Bytes :=
  (metadataDocument metadata).render escape [] ++ [newline]

end ReqPack.Rqp
