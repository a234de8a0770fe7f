import ReqPack.Data.Bytes

/-! # Lua chunks that return a table

The part of Lua in which data is written: comments, short literal strings and table
constructors.  The lexer goes over the text byte by byte, the parser over the tokens with
a stack of the tables that are open.
-/

namespace ReqPack.Data.Lua

open ReqPack.Data.Ascii

/-! ## Tokens -/

inductive Token
  | name (text : Bytes)
  | string (value : Bytes)
  | symbol (c : UInt8)
deriving DecidableEq, Repr

/-- What the lexer is in the middle of. -/
inductive Mode
  | code
  /-- behind one hyphen -/
  | hyphen
  /-- behind two hyphens -/
  | hyphens
  | comment
  | name (text : Bytes)
  | string (quote : UInt8) (value : Bytes)
  /-- behind a backslash in a string -/
  | escape (quote : UInt8) (value : Bytes)
deriving DecidableEq, Repr

/-- The tokens so far, the last one first. -/
structure Lexer where
  tokens : List Token
  mode : Mode
deriving DecidableEq, Repr

namespace Lexer

def isNameStart (c : UInt8) : Bool := (65 ≤ c && c ≤ 90) || (97 ≤ c && c ≤ 122) || c == 95

def isNamePart (c : UInt8) : Bool := isAlnum c || c == 95

/-- The symbols of table constructors: braces, comma, semicolon and the equals sign. -/
def isSymbol (c : UInt8) : Bool := c == 123 || c == 125 || c == 44 || c == 59 || c == 61

/-- The escapes of one letter; those by number are left out. -/
def escaped (c : UInt8) : Option UInt8 :=
  if c = 97 then some 7
  else if c = 98 then some 8
  else if c = 102 then some 12
  else if c = 110 then some newline
  else if c = 114 then some carriageReturn
  else if c = 116 then some 9
  else if c = 118 then some 11
  else if c = backslash ∨ c = doubleQuote ∨ c = singleQuote ∨ c = newline then some c
  else none

def start : Lexer := ⟨[], .code⟩

/-- A byte outside strings, names and comments. -/
def stepCode (tokens : List Token) (c : UInt8) : Option Lexer :=
  if isSpace c then some ⟨tokens, .code⟩
  else if c = 45 then some ⟨tokens, .hyphen⟩
  else if c = doubleQuote ∨ c = singleQuote then some ⟨tokens, .string c []⟩
  else if isNameStart c then some ⟨tokens, .name [c]⟩
  else if isSymbol c then some ⟨.symbol c :: tokens, .code⟩
  else none

/-- A line break ends a short string before its closing quote, which is an error. -/
def step (lexer : Lexer) (c : UInt8) : Option Lexer :=
  match lexer.mode with
  | .code => stepCode lexer.tokens c
  | .hyphen => if c = 45 then some ⟨lexer.tokens, .hyphens⟩ else none
  | .hyphens => if c = 91 then none else some ⟨lexer.tokens, if c = newline then .code else .comment⟩
  | .comment => some ⟨lexer.tokens, if c = newline then .code else .comment⟩
  | .name text => if isNamePart c then some ⟨lexer.tokens, .name (text ++ [c])⟩ else stepCode (.name text :: lexer.tokens) c
  | .string quote value =>
      if c = quote then some ⟨.string value :: lexer.tokens, .code⟩
      else if c = backslash then some ⟨lexer.tokens, .escape quote value⟩
      else if c = newline ∨ c = carriageReturn then none
      else some ⟨lexer.tokens, .string quote (value ++ [c])⟩
  | .escape quote value => (escaped c).map fun letter => ⟨lexer.tokens, .string quote (value ++ [letter])⟩

def run (lexer : Lexer) (text : Bytes) : Option Lexer := text.foldlM step lexer

/-- The tokens in the order of the text; a string or a hyphen is not left open. -/
def finish (lexer : Lexer) : Option (List Token) :=
  match lexer.mode with
  | .code | .hyphens | .comment => some lexer.tokens.reverse
  | .name text => some (.name text :: lexer.tokens).reverse
  | .hyphen | .string _ _ | .escape _ _ => none

end Lexer

def lex (text : Bytes) : Option (List Token) := (Lexer.start.run text).bind Lexer.finish

/-! ## Tables -/

/-- A table is given by its fields in the order of the constructor; a field without a key
goes to the next number. -/
inductive Value
  | string (value : Bytes)
  | table (fields : List (Option Bytes × Value))

namespace Value

/-- The field of a table under a name; the last one given counts. -/
def field (value : Value) (key : Bytes) : Option Value :=
  match value with
  | .string _ => none
  | .table fields => fields.reverse.lookup (some key)

def fields : Value → List (Option Bytes × Value)
  | .string _ => []
  | .table fields => fields

def isTable : Value → Bool
  | .string _ => false
  | .table _ => true

def text : Value → Option Bytes
  | .string value => some value
  | .table _ => none

end Value

inductive FieldState
  /-- a field or the end of the table comes next -/
  | start
  /-- behind a name -/
  | named (key : Bytes)
  /-- behind `=` -/
  | keyed (key : Bytes)
  /-- a separator or the end of the table comes next -/
  | finished
deriving DecidableEq, Repr

/-- A table that is open: its fields so far, the last one first. -/
structure OpenTable where
  fields : List (Option Bytes × Value)
  state : FieldState

inductive Parser
  | start
  /-- behind `return` -/
  | returning
  | tables (inner : OpenTable) (outer : List OpenTable)
  | returned (value : Value)

namespace Parser

/-- A value is complete in the table around it, if a value may stand there. -/
def place (value : Value) : List OpenTable → Option Parser
  | [] => some (.returned value)
  | table :: outer =>
      match table.state with
      | .start => some (.tables ⟨(none, value) :: table.fields, .finished⟩ outer)
      | .keyed key => some (.tables ⟨(some key, value) :: table.fields, .finished⟩ outer)
      | .named _ | .finished => none

def step (parser : Parser) (token : Token) : Option Parser :=
  match parser, token with
  | .start, .name text => if text = bytes "return" then some .returning else none
  | .returning, .string value => some (.returned (.string value))
  | .returning, .symbol c => if c = 123 then some (.tables ⟨[], .start⟩ []) else none
  | .tables table outer, .name text =>
      if table.state = .start then some (.tables ⟨table.fields, .named text⟩ outer) else none
  | .tables table outer, .string value => place (.string value) (table :: outer)
  | .tables table outer, .symbol c =>
      match table.state with
      | .named key => if c = 61 then some (.tables ⟨table.fields, .keyed key⟩ outer) else none
      | .keyed _ => if c = 123 then some (.tables ⟨[], .start⟩ (table :: outer)) else none
      | .start =>
          if c = 123 then some (.tables ⟨[], .start⟩ (table :: outer))
          else if c = 125 then place (.table table.fields.reverse) outer
          else none
      | .finished =>
          if c = 44 ∨ c = 59 then some (.tables ⟨table.fields, .start⟩ outer)
          else if c = 125 then place (.table table.fields.reverse) outer
          else none
  | .returned value, .symbol c => if c = 59 then some (.returned value) else none
  | _, _ => none

def run (parser : Parser) (tokens : List Token) : Option Parser := tokens.foldlM step parser

def finish : Parser → Option Value
  | .returned value => some value
  | _ => none

end Parser

/-- The value a chunk returns; no value where the text is not in this part of Lua. -/
def eval (text : Bytes) : Option Value :=
  (lex text).bind fun tokens => (Parser.start.run tokens).bind Parser.finish

/-! ## Runs -/

theorem Lexer.run_append (lexer : Lexer) (front back : Bytes) :
    lexer.run (front ++ back) = (lexer.run front).bind fun middle => middle.run back := by
  rw [run, List.foldlM_append]
  rfl

theorem Parser.run_append (parser : Parser) (front back : List Token) :
    parser.run (front ++ back) = (parser.run front).bind fun middle => middle.run back := by
  rw [run, List.foldlM_append]
  rfl

/-! ## Literals -/

/-- Backslashes and double quotes get a backslash before them. -/
def quoteString (value : Bytes) : Bytes :=
  value.flatMap fun c => if c = backslash then [backslash, backslash]
    else if c = doubleQuote then [backslash, doubleQuote] else [c]

/-- Whether a short string can hold the bytes as they are. -/
def isOneLine (value : Bytes) : Bool := value.all fun c => c != newline && c != carriageReturn

theorem quoteString_cons (c : UInt8) (value : Bytes) :
    quoteString (c :: value) = (if c = backslash then [backslash, backslash]
      else if c = doubleQuote then [backslash, doubleQuote] else [c]) ++ quoteString value := by
  rw [quoteString, List.flatMap_cons]
  rfl

/-- One quoted byte is read as that byte. -/
theorem Lexer.run_quoted (tokens : List Token) (before : Bytes) {c : UInt8} (plain : c ≠ newline ∧ c ≠ carriageReturn) :
    (⟨tokens, .string doubleQuote before⟩ : Lexer).run (if c = backslash then [backslash, backslash]
      else if c = doubleQuote then [backslash, doubleQuote] else [c]) =
        some ⟨tokens, .string doubleQuote (before ++ [c])⟩ := by
  by_cases solidus : c = backslash
  · rw [if_pos solidus, solidus]
    rfl
  · rw [if_neg solidus]
    by_cases quote : c = doubleQuote
    · rw [if_pos quote, quote]
      rfl
    · have read : (⟨tokens, .string doubleQuote before⟩ : Lexer).step c =
          some ⟨tokens, .string doubleQuote (before ++ [c])⟩ := by
        simp only [step, quote, solidus, plain, or_self, if_false]
      rw [if_neg quote, run, List.foldlM_cons, read]
      rfl

theorem Lexer.run_quoteString (tokens : List Token) (before : Bytes) {value : Bytes} (oneLine : isOneLine value = true) :
    (⟨tokens, .string doubleQuote before⟩ : Lexer).run (quoteString value) =
      some ⟨tokens, .string doubleQuote (before ++ value)⟩ := by
  induction value generalizing before with
  | nil => simp [quoteString, run]
  | cons c value ih =>
      simp only [isOneLine, List.all_cons, Bool.and_eq_true, bne_iff_ne] at oneLine
      rw [quoteString_cons, run_append, run_quoted tokens before oneLine.1, Option.bind_some,
        ih (before ++ [c]) (by simpa [isOneLine] using oneLine.2)]
      simp

/-- A line break in the value is an error. -/
theorem Lexer.run_quoteString_none (tokens : List Token) (before : Bytes) {value : Bytes}
    (broken : isOneLine value = false) :
    (⟨tokens, .string doubleQuote before⟩ : Lexer).run (quoteString value) = none := by
  induction value generalizing before with
  | nil => cases broken
  | cons c value ih =>
      rw [quoteString_cons, run_append]
      by_cases plain : c ≠ newline ∧ c ≠ carriageReturn
      · have later : isOneLine value = false := by
          simpa [isOneLine, plain] using broken
        rw [run_quoted tokens before plain, Option.bind_some, ih (before ++ [c]) later]
      · have ends : c = newline ∨ c = carriageReturn := by
          by_cases first : c = newline
          · exact Or.inl first
          · exact Or.inr (by_contra fun second => plain ⟨first, second⟩)
        have read : (⟨tokens, .string doubleQuote before⟩ : Lexer).run (if c = backslash then [backslash, backslash]
            else if c = doubleQuote then [backslash, doubleQuote] else [c]) = none := by
          rcases ends with rfl | rfl <;> rfl
        rw [read]
        rfl

end ReqPack.Data.Lua
