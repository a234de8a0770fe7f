import ReqPack.Data.Buffer
import ReqPack.Data.Bytes
import ReqPack.Data.Ordering

/-! # Tar archives of packages

The writer that packs a payload and the reader that lists the entries of an archive.
-/

namespace ReqPack.Rqp

open ReqPack.Data
open ReqPack.Data.Ascii

def tarBlockSize : Nat := 512

def fileType : UInt8 := 48

def symlinkType : UInt8 := 50

def directoryType : UInt8 := 53

structure TarEntry where
  path : Bytes
  type : UInt8
  size : Nat
  data : Bytes
  linkTarget : Bytes
deriving DecidableEq, Repr

structure TarWriteEntry where
  path : Bytes
  type : UInt8
  data : Bytes
  linkTarget : Bytes
  mode : UInt32
deriving DecidableEq, Repr

/-! ## Paths -/

/-- The components of a relative path as `std::filesystem::path` lists them: doubled
slashes count once, and a slash at the end leaves an empty component. -/
def components (path : Bytes) : List Bytes :=
  let parts := path.splitOn slash
  parts.dropLast.filter (fun part => !part.isEmpty) ++ parts.getLast?.toList

def pathHasInvalidSegments (path : Bytes) : Bool :=
  path.isEmpty || path.head? == some slash ||
    (components path).any fun token => token.isEmpty || token == bytes "." || token == bytes ".."

/-! ## Reading -/

/-- The loop of `parse_tar_octal`. -/
def parseTarOctal (value : Nat) : Bytes → Nat
  | [] => value
  | c :: rest =>
      if c = 0 then value
      else if c = space ∨ c = 9 then parseTarOctal value rest
      else if c < 48 ∨ 55 < c then value
      else parseTarOctal (value * 8 + (c.toNat - 48)) rest

def parseTarString (field : Bytes) : Bytes := field.takeWhile (· != 0)

def tarBlockIsZero (block : Bytes) : Bool := block.all (· == 0)

/-- The first loop of `normalize_tar_entry_path`. -/
def dropCurrentDirectory : Bytes → Bytes
  | 46 :: 47 :: rest => dropCurrentDirectory rest
  | path => path

def dropTrailingSlashes (path : Bytes) : Bytes :=
  match path with
  | [] => []
  | first :: rest => first :: rest.rdropWhile (· == slash)

def normalizeTarEntryPath (path : Bytes) : Bytes :=
  let path := dropTrailingSlashes (dropCurrentDirectory path)
  if path = bytes "." then [] else path

/-- `trim_copy` of the packages. -/
def trimSpaces (value : Bytes) : Bytes := (value.dropWhile isSpace).rdropWhile isSpace

/-- The path of an entry by its header; a long path given before replaces it. -/
def headerPath (longPath header : Bytes) : Bytes :=
  let name := parseTarString (slice header 0 100)
  let pathPrefix := parseTarString (slice header 345 155)
  let path := if pathPrefix.isEmpty then name else pathPrefix ++ slash :: name
  normalizeTarEntryPath (if longPath.isEmpty then path else longPath)

def headerType (header : Bytes) : UInt8 :=
  match slice header 156 1 with
  | type :: _ => if type = 0 then fileType else type
  | [] => fileType

def paddedSize (size : Nat) : Nat := (size + tarBlockSize - 1) / tarBlockSize * tarBlockSize

/-- The loop of `parse_tar_entries` from an offset. -/
def parseTarEntriesFrom (longPath content : Bytes) : Except Bytes (List TarEntry) :=
  if _more : tarBlockSize ≤ content.length ∧ tarBlockIsZero (content.take tarBlockSize) = false then
    let header := content.take tarBlockSize
    let body := content.drop tarBlockSize
    let size := parseTarOctal 0 (slice header 124 12)
    let type := headerType header
    let path := headerPath longPath header
    if body.length < size then .error (bytes "tar entry exceeds archive size")
    else
      let data := body.take size
      if type = 76 then parseTarEntriesFrom (trimSpaces data) (body.drop (paddedSize size))
      else if path.isEmpty then parseTarEntriesFrom [] (body.drop (paddedSize size))
      else
        (parseTarEntriesFrom [] (body.drop (paddedSize size))).map fun entries =>
          ⟨path, type, size, data, parseTarString (slice header 157 100)⟩ :: entries
  else .ok []
termination_by content.length
decreasing_by
  all_goals
    simp only [tarBlockSize, List.length_drop] at *
    omega

def parseTarEntries (content : Bytes) : Except Bytes (List TarEntry) := parseTarEntriesFrom [] content

/-! ## Writing -/

/-- The octal digits of a number. -/
def toOctal (value : Nat) : Bytes := (Nat.toDigits 8 value).map Char.toUInt8

def writeTarOctal (length value : Nat) : Except Bytes Bytes :=
  let octal := toOctal value
  if length < octal.length + 1 then .error (bytes "tar field overflow")
  else .ok (List.replicate (length - octal.length - 1) 48 ++ octal ++ [0])

def writeTarChecksum (length value : Nat) : Except Bytes Bytes :=
  let octal := toOctal value
  if length < octal.length + 2 then .error (bytes "tar checksum overflow")
  else .ok (List.replicate (length - octal.length - 2) space ++ octal ++ [0, space])

structure TarPathFields where
  name : Bytes
  pathPrefix : Bytes
deriving DecidableEq, Repr

def tooLong (path : Bytes) : Bytes := bytes "archive path too long: " ++ path

/-- A place at which a path is cut into a name and what stands before it. -/
def splitsAt (path : Bytes) (separator : Nat) : Bool :=
  path[separator]? == some slash && 0 < separator && separator ≤ 155 &&
    separator + 1 < path.length && path.length - (separator + 1) ≤ 100

/-- The last separator that cuts a long path wins. -/
def splitTarPathFields (path : Bytes) : Except Bytes TarPathFields :=
  if path.length ≤ 100 then .ok ⟨path, []⟩
  else if 255 < path.length then .error (tooLong path)
  else
    match (List.range path.length).reverse.find? (splitsAt path) with
    | some separator => .ok ⟨path.drop (separator + 1), path.take separator⟩
    | none => .error (tooLong path)

/-- The header without its checksum, which counts as blanks. -/
def blankHeader (entry : TarWriteEntry) (fields : TarPathFields) (mode number8 size number12 : Bytes) : Bytes :=
  let header := overwrite (List.replicate tarBlockSize 0) 0 fields.name
  let header := overwrite header 100 mode
  let header := overwrite header 108 number8
  let header := overwrite header 116 number8
  let header := overwrite header 124 size
  let header := overwrite header 136 number12
  let header := overwrite header 148 (List.replicate 8 space)
  let header := overwrite header 156 [entry.type]
  let header := if entry.type = symlinkType then overwrite header 157 entry.linkTarget else header
  let header := overwrite header 257 (bytes "ustar")
  let header := overwrite header 263 (bytes "00")
  overwrite header 345 fields.pathPrefix

def tarHeaderForEntry (entry : TarWriteEntry) : Except Bytes Bytes := do
  let fields ← splitTarPathFields entry.path
  if entry.type = symlinkType ∧ 100 < entry.linkTarget.length then
    throw (bytes "payload symlink target too long: " ++ entry.path)
  let mode ← writeTarOctal 8 entry.mode.toNat
  let number8 ← writeTarOctal 8 0
  let size ← writeTarOctal 12 (if entry.type = fileType then entry.data.length else 0)
  let number12 ← writeTarOctal 12 0
  let header := blankHeader entry fields mode number8 size number12
  let checksum ← writeTarChecksum 8 (header.map UInt8.toNat).sum
  return overwrite header 148 checksum

def appendTarEntryBytes (output : Bytes) (entry : TarWriteEntry) : Except Bytes Bytes := do
  let header ← tarHeaderForEntry entry
  if entry.type = fileType then
    return output ++ header ++ entry.data ++
      List.replicate ((tarBlockSize - entry.data.length % tarBlockSize) % tarBlockSize) 0
  else return output ++ header

def tarEntryBefore (left right : TarWriteEntry) : Bool :=
  if left.path ≠ right.path then left.path < right.path else left.type < right.type

def tarBytesFromEntries (entries : List TarWriteEntry) : Except Bytes Bytes := do
  let output ← (stableSort tarEntryBefore entries).foldlM appendTarEntryBytes []
  return output ++ List.replicate (tarBlockSize * 2) 0

end ReqPack.Rqp
