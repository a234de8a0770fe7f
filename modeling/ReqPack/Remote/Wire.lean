import ReqPack.Data.Bytes

/-! # Command lines of the remote protocol

A client joins its arguments to one line and the server cuts the line into tokens
again.  A local file is sent behind a header line that carries the command.
-/

namespace ReqPack.Remote

open ReqPack.Data
open ReqPack.Data.Ascii

/-- The variables of the loop of `tokenize_command_line`. -/
structure Tokenizer where
  tokens : List Bytes
  current : Bytes
  inSingleQuotes : Bool
  inDoubleQuotes : Bool
  escaping : Bool
deriving DecidableEq, Repr

namespace Tokenizer

def start : Tokenizer := ⟨[], [], false, false, false⟩

def push (state : Tokenizer) : Tokenizer :=
  if state.current.isEmpty then state
  else { state with tokens := state.tokens ++ [state.current], current := [] }

def step (state : Tokenizer) (c : UInt8) : Tokenizer :=
  if state.escaping then { state with current := state.current ++ [c], escaping := false }
  else if c == backslash && !state.inSingleQuotes then { state with escaping := true }
  else if c == singleQuote && !state.inDoubleQuotes then
    { state with inSingleQuotes := !state.inSingleQuotes }
  else if c == doubleQuote && !state.inSingleQuotes then
    { state with inDoubleQuotes := !state.inDoubleQuotes }
  else if isSpace c && !state.inSingleQuotes && !state.inDoubleQuotes then state.push
  else { state with current := state.current ++ [c] }

def run (state : Tokenizer) (command : Bytes) : Tokenizer := command.foldl step state

def finish (state : Tokenizer) : List Bytes :=
  if state.escaping || state.inSingleQuotes || state.inDoubleQuotes then [] else state.push.tokens

end Tokenizer

def tokenizeCommandLine (command : Bytes) : List Bytes := (Tokenizer.start.run command).finish

def needsQuotes (argument : Bytes) : Bool :=
  argument.any fun c => isBlank c || c == doubleQuote || c == singleQuote

def quoteByte (c : UInt8) : Bytes :=
  if c = backslash ∨ c = doubleQuote then [backslash, c] else [c]

/-- What `join_arguments` writes for one argument. -/
def quoteArgument (argument : Bytes) : Bytes :=
  if needsQuotes argument then doubleQuote :: (argument.flatMap quoteByte ++ [doubleQuote])
  else argument

def joinArguments (arguments : List Bytes) : Bytes :=
  [space].intercalate (arguments.map quoteArgument)

/-! ## Uploads -/

def remoteUploadInstallCommand : Bytes := bytes "__reqpack_upload_install__"

def remoteUploadPathPlaceholder : Bytes := bytes "__REQPACK_REMOTE_UPLOAD_PATH__"

structure UploadInstallEnvelope where
  size : Nat
  filename : Bytes
  commandTemplate : Bytes
deriving DecidableEq, Repr

def parseUploadInstallEnvelope (commandTokens : List Bytes) : Option UploadInstallEnvelope :=
  match commandTokens with
  | command :: size :: filename :: commandTemplate :: _ =>
      if command = remoteUploadInstallCommand then
        (stoull size).bind fun parsedSize =>
          if filename.isEmpty || commandTemplate.isEmpty then none
          else some ⟨parsedSize, filename, commandTemplate⟩
      else none
  | _ => none

def sanitizeUploadFilename (filename : Bytes) : Bytes :=
  let name := pathFilename filename
  if name.isEmpty then bytes "upload.bin"
  else name.map fun c => if isAlnum c || c == 46 || c == 95 || c == 45 then c else 95

/-- Where `write_uploaded_file_to_temp` stores an upload; the number is the clock's. -/
def uploadPath (tempDirectory : Bytes) (uniquePrefix : Nat) (filename : Bytes) : Bytes :=
  joinPath (joinPath (joinPath tempDirectory (bytes "reqpack")) (bytes "remote-upload"))
    (toDecimal uniquePrefix ++ 45 :: sanitizeUploadFilename filename)

/-- The text before and behind the first occurrence of a pattern. -/
def splitFirst (pattern : Bytes) : Bytes → Option (Bytes × Bytes)
  | [] => if pattern.isEmpty then some ([], []) else none
  | c :: rest =>
      if pattern.isPrefixOf (c :: rest) then some ([], (c :: rest).drop pattern.length)
      else (splitFirst pattern rest).map fun parts => (c :: parts.1, parts.2)

/-- `none` is the exception for a template without the placeholder. -/
def substituteUploadPath (commandTemplate path : Bytes) : Option Bytes :=
  (splitFirst remoteUploadPathPlaceholder commandTemplate).map fun parts => parts.1 ++ path ++ parts.2

end ReqPack.Remote
