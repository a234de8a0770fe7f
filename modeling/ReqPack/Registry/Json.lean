import ReqPack.Data.Lists
import ReqPack.Data.Paths
import ReqPack.Registry.Record

/-! # Registry files

`registry_json_parser`: a registry file declares a record under the name of the file and
any number of aliases for it.  The tree of the JSON text is given; what does not parse as
JSON, or breaks a rule of the format, is an exception.
-/

namespace ReqPack.Registry

open ReqPack.Data ReqPack.Core
open ReqPack.Planner (trimCopy toLowerCopy)

/-- An entry of `aliases`: an object with a name, or the text of the entry itself. -/
structure AliasNode where
  name : Option String := none
  description : String := ""
  text : String := ""
deriving Repr, DecidableEq

structure WriteScopeNode where
  kind : Option String := none
  value : String := ""
deriving Repr, DecidableEq

/-- The fields `parse_registry_json_file` reads from the tree. -/
structure RegistryJson where
  schemaVersion : Int := 0
  name : Option String := none
  source : Option String := none
  description : String := ""
  role : String := ""
  targetSystem : String := ""
  capabilities : List String := []
  ecosystemScopes : List String := []
  writeScopes : List WriteScopeNode := []
  networkScopes : List RegistryNetworkScope := []
  privilegeLevel : String := ""
  scriptSha256 : String := ""
  bootstrapSha256 : String := ""
  aliases : List AliasNode := []
deriving Repr, DecidableEq

section Names

/-- The name of a file without its extension: from the last dot on, unless that is the
first letter. -/
def filenameStem (filename : String) : String :=
  let letters := filename.toList
  let front := (letters.reverse.dropWhile (· != '.')).drop 1
  if '.' ∈ letters ∧ front ≠ [] ∧ filename ≠ ".." then String.ofList front.reverse else filename

def filenameExtension (filename : String) : String :=
  String.ofList (filename.toList.drop (filenameStem filename).length)

def filename (path : Path) : String := path.getLast?.getD ""

def hasJsonExtension (path : Path) : Bool := filenameExtension (filename path) == ".json"

end Names

section Fields

def requiredString (value : Option String) : Option String :=
  value.bind fun text => if (trimCopy text).isEmpty then none else some (trimCopy text)

def loadStringArray (values : List String) : List String :=
  ((values.map trimCopy).filter fun value => !value.isEmpty).map toLowerCopy

def loadWriteScopes (nodes : List WriteScopeNode) : List RegistryWriteScope :=
  nodes.filterMap fun node => node.kind.bind fun kind =>
    if (trimCopy kind).isEmpty then none else some ⟨toLowerCopy (trimCopy kind), trimCopy node.value⟩

def loadNetworkScopes (nodes : List RegistryNetworkScope) : List RegistryNetworkScope :=
  (nodes.map fun node =>
    (⟨toLowerCopy (trimCopy node.host), toLowerCopy (trimCopy node.scheme), trimCopy node.pathPrefix⟩ :
      RegistryNetworkScope)).filter fun scope =>
        !(scope.host.isEmpty && scope.scheme.isEmpty && scope.pathPrefix.isEmpty)

end Fields

def buildMainRecord (json : RegistryJson) (originPath : Path) : Option RegistryRecord :=
  (requiredString json.name).bind fun name => (requiredString json.source).bind fun source =>
    some
      { name := toLowerCopy name
        source := source
        isAlias := false
        originPath := originPath
        description := trimCopy json.description
        role := toLowerCopy (trimCopy json.role)
        targetSystem := toLowerCopy (trimCopy json.targetSystem)
        capabilities := loadStringArray json.capabilities
        ecosystemScopes := loadStringArray json.ecosystemScopes
        writeScopes := loadWriteScopes json.writeScopes
        networkScopes := loadNetworkScopes json.networkScopes
        privilegeLevel := toLowerCopy (trimCopy json.privilegeLevel)
        scriptSha256 := toLowerCopy (trimCopy json.scriptSha256)
        bootstrapSha256 := toLowerCopy (trimCopy json.bootstrapSha256) }

def buildAliasRecord (mainName : String) (originPath : Path) (node : AliasNode) : Option RegistryRecord :=
  let name := toLowerCopy (trimCopy (node.name.getD node.text))
  if name.isEmpty then none
  else some
    { name := name
      source := mainName
      isAlias := true
      originPath := originPath
      description := if node.name.isSome then trimCopy node.description else "" }

/-- `parse_registry_json_file`; the content is absent when it is no JSON. -/
def parseRegistryJsonFile (path : Path) (content : Option RegistryJson) : Option (List RegistryRecord) :=
  if !hasJsonExtension path then none
  else
    content.bind fun json =>
      if json.schemaVersion ≠ 1 then none
      else
        (buildMainRecord json path).bind fun main =>
          if main.name ≠ toLowerCopy (filenameStem (filename path)) then none
          else (json.aliases.mapM (buildAliasRecord main.name path)).map (main :: ·)

/-- What a registry file says about a record: where it comes from and never its payload. -/
structure Declares (path : Path) (record : RegistryRecord) : Prop where
  origin : record.originPath = path
  name : toLowerCopy record.name = record.name
  source : record.source.isEmpty = false
  payload : { record with script := "", bootstrapScript := "", bundleSource := false, bundlePath := "" } = record

theorem requiredString_isEmpty {value : Option String} {text : String}
    (required : requiredString value = some text) : text.isEmpty = false := by
  simp only [requiredString, Option.bind_eq_some_iff] at required
  obtain ⟨given, _, kept⟩ := required
  split at kept
  · cases kept
  · rename_i full
    cases kept
    simpa using full

theorem buildMainRecord_declares {json : RegistryJson} {path : Path} {record : RegistryRecord}
    (built : buildMainRecord json path = some record) :
    Declares path record ∧ record.name.isEmpty = false := by
  simp only [buildMainRecord, Option.bind_eq_some_iff, Option.some.injEq] at built
  obtain ⟨name, named, source, sourced, rfl⟩ := built
  refine ⟨⟨rfl, toLowerCopy_idem name, requiredString_isEmpty sourced, rfl⟩, ?_⟩
  rw [toLowerCopy_isEmpty]
  exact requiredString_isEmpty named

theorem buildAliasRecord_declares {mainName : String} {path : Path} {node : AliasNode} {record : RegistryRecord}
    (named : mainName.isEmpty = false) (built : buildAliasRecord mainName path node = some record) :
    Declares path record := by
  simp only [buildAliasRecord, Option.ite_none_left_eq_some, Option.some.injEq] at built
  obtain ⟨_, rfl⟩ := built
  exact ⟨rfl, toLowerCopy_idem _, named, rfl⟩

/-- A file that lies elsewhere declares the same records. -/
def movedTo (path : Path) (record : RegistryRecord) : RegistryRecord := { record with originPath := path }

theorem buildAliasRecords_moved {mainName : String} {path other : Path} {nodes : List AliasNode} :
    nodes.mapM (buildAliasRecord mainName other) =
      (nodes.mapM (buildAliasRecord mainName path)).map (List.map (movedTo other)) := by
  induction nodes with
  | nil => rfl
  | cons node nodes ih =>
      have built : buildAliasRecord mainName other node =
          (buildAliasRecord mainName path node).map (movedTo other) := by
        simp only [buildAliasRecord]
        split <;> rfl
      rw [List.mapM_cons, List.mapM_cons, ih, built]
      cases buildAliasRecord mainName path node with
      | none => rfl
      | some record =>
          cases nodes.mapM (buildAliasRecord mainName path) with
          | none => rfl
          | some records => rfl

theorem parseRegistryJsonFile_moved {path other : Path} {content : Option RegistryJson}
    (same : filename other = filename path) :
    parseRegistryJsonFile other content =
      (parseRegistryJsonFile path content).map (List.map (movedTo other)) := by
  have built (json : RegistryJson) : buildMainRecord json other =
      (buildMainRecord json path).map (movedTo other) := by
    simp only [buildMainRecord]
    cases requiredString json.name with
    | none => rfl
    | some name =>
        cases requiredString json.source with
        | none => rfl
        | some source => rfl
  have extension : hasJsonExtension other = hasJsonExtension path := by
    rw [hasJsonExtension, hasJsonExtension, same]
  rw [parseRegistryJsonFile, parseRegistryJsonFile, extension, same]
  by_cases json : (!hasJsonExtension path) = true
  · rw [if_pos json, if_pos json, Option.map_none]
  · rw [if_neg json, if_neg json]
    cases content with
    | none => rw [Option.bind_none, Option.bind_none, Option.map_none]
    | some tree =>
        rw [Option.bind_some, Option.bind_some]
        by_cases version : tree.schemaVersion ≠ 1
        · rw [if_pos version, if_pos version, Option.map_none]
        · rw [if_neg version, if_neg version, built]
          cases buildMainRecord tree path with
          | none => rw [Option.map_none, Option.bind_none, Option.bind_none, Option.map_none]
          | some main =>
              rw [Option.map_some, Option.bind_some, Option.bind_some]
              by_cases named : main.name ≠ toLowerCopy (filenameStem (filename path))
              · rw [if_pos named, if_pos (by exact named), Option.map_none]
              · rw [if_neg named, if_neg (by exact named), @buildAliasRecords_moved _ path other,
                  show (movedTo other main).name = main.name from rfl]
                cases tree.aliases.mapM (buildAliasRecord main.name path) with
                | none => rfl
                | some aliases => rfl

theorem parseRegistryJsonFile_declares {path : Path} {content : Option RegistryJson}
    {records : List RegistryRecord} (parsed : parseRegistryJsonFile path content = some records) :
    ∀ record ∈ records, Declares path record := by
  simp only [parseRegistryJsonFile] at parsed
  split at parsed
  · cases parsed
  · obtain ⟨json, _, accepted⟩ := Option.bind_eq_some_iff.mp parsed
    split at accepted
    · cases accepted
    · obtain ⟨main, built, checked⟩ := Option.bind_eq_some_iff.mp accepted
      split at checked
      · cases checked
      · obtain ⟨aliases, mapped, rfl⟩ := Option.map_eq_some_iff.mp checked
        have declared := buildMainRecord_declares built
        intro record member
        rcases List.mem_cons.mp member with rfl | listed
        · exact declared.1
        · obtain ⟨node, _, made⟩ := exists_of_mem_mapM mapped listed
          exact buildAliasRecord_declares declared.2 made

end ReqPack.Registry
